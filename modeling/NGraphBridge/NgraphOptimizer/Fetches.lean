import NGraphBridge.EncapsulateClusters.Values
import NGraphBridge.NgraphOptimizer.Pass

/-!
# What is fetched

A fetch is read off the node that bears its name, after the outputs of the nodes
whose names are fed were replaced.  The identity node of a fetched node that is
fed as well takes over the feed, but the readers of the node stay with it.
-/

namespace NGraphBridge.NgraphOptimizer

open TF EncapsulateClusters NGraphBridge.Digraph

section Fed

variable {V : Type}

/-- Values for the names that are fed. -/
def fedWith (item : GrapplerItem) (values : String → Int → V) (name : String) :
    Option (Int → V) :=
  if name ∈ item.feed then some (values name) else none

/-- An evaluation in which the outputs of fed nodes are given. -/
def EvaluatesFed (graph : Graph) (interp : Interpretation V)
    (feed : String → Option (Int → V)) (val : Nat × Int → V) : Prop :=
  ∀ node ∈ graph.op_nodes, match feed node.name with
    | some outputs => ∀ slot, val (node.id, slot) = outputs slot
    | none => graph.Computes interp val node

/-- Pure ops, whose outputs do not depend on the name of the node, and
`IdentityN`, which passes on its inputs. -/
structure Pure (interp : Interpretation V) : Prop where
  nameless : ∀ name other op attrs inputs,
    interp name op attrs inputs = interp other op attrs inputs
  identityN : ∀ name attrs inputs (slot : Nat) value,
    inputs[slot]? = some value →
    interp name "IdentityN" attrs inputs slot = value

theorem EvaluatesFed.fed {item : GrapplerItem} {graph : Graph}
    {interp : Interpretation V} {values : String → Int → V}
    {val : Nat × Int → V} {node : Node}
    (evaluates : EvaluatesFed graph interp (fedWith item values) val)
    (member : node ∈ graph.op_nodes) (isFed : node.name ∈ item.feed)
    (slot : Int) :
    val (node.id, slot) = values node.name slot := by
  have here := evaluates node member
  rw [fedWith, if_pos isFed] at here
  exact here slot

theorem EvaluatesFed.unfed {item : GrapplerItem} {graph : Graph}
    {interp : Interpretation V} {values : String → Int → V}
    {val : Nat × Int → V} {node : Node}
    (evaluates : EvaluatesFed graph interp (fedWith item values) val)
    (member : node ∈ graph.op_nodes) (unfed : node.name ∉ item.feed) :
    graph.Computes interp val node := by
  have here := evaluates node member
  rwa [fedWith, if_neg unfed] at here

end Fed

/-- A graph of pure ops: it has no cycle, all inputs are there, and the feeds
and fetches of the item name nodes of it. -/
structure PureItem (item : GrapplerItem) : Prop where
  wf : item.graph.WF
  acyclic : Acyclic item.graph.DataEdge
  complete : ∀ node ∈ item.graph.op_nodes, ∀ input < node.num_inputs,
    ∃ src src_output, item.graph.Feeds src src_output node.id input
  feed : ∀ name ∈ item.feed, ∃ node ∈ item.graph.op_nodes, node.name = name
  fetch : ∀ f ∈ item.fetch, ∃ node ∈ item.graph.op_nodes,
    node.name = fetchName f

/-- Every fetch has the value that it has in the graph of the item. -/
def FetchesKept (item : GrapplerItem) (next : Graph) : Prop :=
  ∀ (V : Type) (interp : Interpretation V), Pure interp → ∀ values val nextVal,
    EvaluatesFed item.graph interp (fedWith item values) val →
    EvaluatesFed next interp (fedWith item values) nextVal →
    ∀ f ∈ item.fetch, ∀ node ∈ item.graph.op_nodes, node.name = fetchName f →
    ∀ bearer ∈ next.op_nodes, bearer.name = fetchName f →
    ∀ k : Nat, k < node.num_outputs → nextVal (bearer.id, k) = val (node.id, k)

/-- An `IdentityN` passes an input on to the output of the same number only. -/
def Passes (node : Node) (input slot : Int) : Prop :=
  node.type_string = "IdentityN" → 0 ≤ slot → slot < node.num_inputs →
    slot = input

/-- The tensors that depend, through nodes that are not fed, on a node that is
fed and gets an identity node. -/
inductive Sways (item : GrapplerItem) (gets : Node → Prop) : Nat × Int → Prop
  | fed {node : Node} (member : node ∈ item.graph.op_nodes)
  (isFed : node.name ∈ item.feed)
      (given : gets node) (slot : Int) : Sways item gets (node.id, slot)
  | step {node : Node} (member : node ∈ item.graph.op_nodes)
    (unfed : node.name ∉ item.feed)
      {tensor : Nat × Int} (sways : Sways item gets tensor) {input : Int}
      (feeds : item.graph.Feeds tensor.1 tensor.2 node.id input) {slot : Int}
      (passes : Passes node input slot) : Sways item gets (node.id, slot)

/-- No output of a fetched node that is not fed itself depends on such a
node. -/
def Unswayed (item : GrapplerItem) (gets : Node → Prop) : Prop :=
  ∀ f ∈ item.fetch, ∀ node ∈ item.graph.op_nodes, node.name = fetchName f →
    node.name ∉ item.feed → ∀ k : Nat, k < node.num_outputs →
    ¬ Sways item gets (node.id, k)

section Kept

variable {item : GrapplerItem} {gets : Node → Prop} {copy : Nat → Option Nat}
  {name : Nat → String} {next : Graph}

theorem setName_mem (added : Added item.graph gets copy name next) {node : Node}
    (member : node ∈ item.graph.op_nodes) :
    setName (name node.id) node ∈ next.op_nodes := by
  obtain ⟨inNodes, isOp⟩ := List.mem_filter.mp member
  exact List.mem_filter.mpr
    ⟨(added.nodes _).mpr (.inl ⟨node, inNodes, rfl⟩), isOp⟩

/-- An old node is fed in the rewritten graph if it was fed and kept its
name. -/
theorem name_fed (pure_ : PureItem item)
    (added : Added item.graph gets copy name next) {node : Node}
    (member : node ∈ item.graph.op_nodes) :
    name node.id ∈ item.feed ↔ node.name ∈ item.feed ∧ ¬ gets node := by
  have inNodes := (List.mem_filter.mp member).1
  have copied := added.copied node inNodes
  cases found : copy node.id with
  | none =>
      have notGiven : ¬ gets node := by simpa [found] using copied
      rw [added.kept node inNodes found]
      simp [notGiven]
  | some id =>
      have given : gets node := by simpa [found] using copied
      have notFed : name node.id ∉ item.feed := by
        intro isFed
        obtain ⟨other, otherIn, same⟩ := pure_.feed _ isFed
        exact added.renamed node inNodes (by simp [found]) other
          (List.mem_filter.mp otherIn).1 same
      simp [given, notFed]

theorem feeds_old (added : Added item.graph gets copy name next) {node : Node}
    (member : node ∈ item.graph.op_nodes) {u : Nat} {a b : Int} :
    next.Feeds u a node.id b ↔ item.graph.Feeds u a node.id b := by
  rw [added.feeds]
  constructor
  · rintro (old | ⟨other, otherIn, found, _⟩)
    · exact old
    · exact absurd ⟨node, (List.mem_filter.mp member).1, rfl⟩
        (added.new other otherIn _ found)
  · exact .inl

theorem not_sways_input {node : Node} (member : node ∈ item.graph.op_nodes)
    (unfed : node.name ∉ item.feed) {slot : Int}
    (unswayed : ¬ Sways item gets (node.id, slot)) {tensor : Nat × Int}
    {input : Int} (feeds : item.graph.Feeds tensor.1 tensor.2 node.id input)
    (passes : Passes node input slot) :
    ¬ Sways item gets tensor :=
  fun sways => unswayed (.step member unfed sways feeds passes)

section Agree

variable {V : Type} {interp : Interpretation V} {values : String → Int → V}
  {val nextVal : Nat × Int → V}

/-- Tensors that are not swayed have the same value in both graphs. -/
theorem agree_of_unswayed (pure_ : PureItem item)
    (added : Added item.graph gets copy name next) (pureOps : Pure interp)
    (evaluates : EvaluatesFed item.graph interp (fedWith item values) val)
    (nextEvaluates : EvaluatesFed next interp (fedWith item values) nextVal)
    {node : Node} (member : node ∈ item.graph.op_nodes) {slot : Int}
    (unswayed : ¬ Sways item gets (node.id, slot)) :
    nextVal (node.id, slot) = val (node.id, slot) := by
  have wf := pure_.wf
  generalize atId : node.id = id
  induction id using (dataEdge_wellFounded pure_.wf pure_.acyclic).induction
    generalizing node slot with
  | h id ih =>
      subst atId
      have inNext := setName_mem added member
      have fedNext := name_fed pure_ added member
      by_cases isFed : node.name ∈ item.feed
      · have notGiven : ¬ gets node :=
          fun given => unswayed (.fed member isFed given slot)
        have kept : name node.id = node.name := by
          have inNodes := (List.mem_filter.mp member).1
          apply added.kept node inNodes
          rw [← Option.not_isSome_iff_eq_none, added.copied node inNodes]
          exact notGiven
        rw [evaluates.fed member isFed]
        have there := nextEvaluates.fed inNext
          (fedNext.mpr ⟨isFed, notGiven⟩) slot
        rw [setName, kept] at there
        exact there
      · obtain ⟨inputs, reads, outputs⟩ := evaluates.unfed member isFed
        obtain ⟨nextInputs, nextReads, nextOutputs⟩ :=
          nextEvaluates.unfed inNext
            (fun nextFed => isFed (fedNext.mp nextFed).1)
        have same : ∀ {input : Int} {tensor other : Nat × Int},
            item.graph.Feeds tensor.1 tensor.2 node.id input →
            next.Feeds other.1 other.2 node.id input → Passes node input slot →
            nextVal other = val tensor := by
          intro input tensor other feeds nextFeeds passes
          have alsoFeeds := (feeds_old added member).mp nextFeeds
          obtain ⟨sameSrc, sameSlot⟩ := wf.single_feeds alsoFeeds feeds
          obtain ⟨⟨_, srcOp⟩, _⟩ := feeds_ends wf feeds
          have srcId : (item.graph.node tensor.1).id = tensor.1 :=
            Graph.node_id _
          have quiet := not_sways_input member isFed unswayed feeds passes
          have step := @ih tensor.1 ⟨_, _, feeds⟩ (item.graph.node tensor.1)
            srcOp tensor.2 (by rwa [srcId]) srcId
          rw [← step, ← sameSrc, ← sameSlot]
        rw [outputs]
        refine (nextOutputs slot).trans ?_
        rw [pureOps.nameless (setName (name node.id) node).name node.name]
        by_cases passesOn : node.type_string = "IdentityN" ∧ 0 ≤ slot ∧
            slot < node.num_inputs
        · obtain ⟨isIdentity, nonneg, inside⟩ := passesOn
          obtain ⟨k, rfl⟩ := Int.eq_ofNat_of_zero_le nonneg
          have inside : k < node.num_inputs := by omega
          obtain ⟨tensor, feeds, atK⟩ := reads.input inside
          obtain ⟨other, nextFeeds, nextAtK⟩ := nextReads.input inside
          have nextType : (setName (name node.id) node).type_string =
              "IdentityN" := isIdentity
          rw [isIdentity, nextType, pureOps.identityN _ _ _ _ _ atK,
            pureOps.identityN _ _ _ _ _ nextAtK]
          exact same feeds nextFeeds (fun _ _ _ => rfl)
        · have sameInputs : nextInputs = inputs.map (fun value => value) := by
            apply forall₂_eq_map reads nextReads
            intro index _ value nextValue isValue isNextValue
            obtain ⟨tensor, feeds, rfl⟩ := isValue
            obtain ⟨other, nextFeeds, rfl⟩ := isNextValue
            exact same feeds nextFeeds
              (fun isIdentity nonneg inside =>
                absurd ⟨isIdentity, nonneg, inside⟩ passesOn)
          rw [sameInputs, List.map_id']
          rfl

/-- Fetches that nothing sways keep their values. -/
theorem fetchesKept_of_unswayed (pure_ : PureItem item)
    (added : Added item.graph gets copy name next)
    (unswayed : Unswayed item gets) :
    FetchesKept item next := by
  intro V interp pureOps values val nextVal evaluates nextEvaluates f inFetch
    node member named bearer bearerIn bearerNamed k inside
  obtain ⟨inNodes, _⟩ := List.mem_filter.mp member
  have agrees : node.name ∉ item.feed →
      nextVal (node.id, k) = val (node.id, k) := fun unfed =>
    agree_of_unswayed pure_ added pureOps evaluates nextEvaluates member
      (unswayed f inFetch node member named unfed k inside)
  obtain ⟨bearerNodes, bearerOp⟩ := List.mem_filter.mp bearerIn
  have bearerFed :=
    @EvaluatesFed.fed _ item next interp values nextVal bearer nextEvaluates
      bearerIn
  rw [bearerNamed, ← named] at bearerFed
  by_cases isFed : node.name ∈ item.feed
  · rw [evaluates.fed member isFed, bearerFed isFed]
  · rw [← agrees isFed]
    cases (added.nodes bearer).mp bearerNodes with
    | inl isOld =>
        obtain ⟨old, oldIn, rfl⟩ := isOld
        have sameNode : old = node := by
          have oldName : name old.id = old.name := by
            apply added.kept old oldIn
            rw [← Option.not_isSome_iff_eq_none]
            intro some_
            exact added.renamed old oldIn some_ node inNodes
              (named.trans bearerNamed.symm)
          apply pure_.wf.name_injective oldIn inNodes
          rw [← oldName, named]
          exact bearerNamed
        rw [sameNode]
        rfl
    | inr isCopy =>
        obtain ⟨old, oldIn, id, found, rfl⟩ := isCopy
        obtain rfl : old = node :=
          pure_.wf.name_injective oldIn inNodes (bearerNamed.trans named.symm)
        obtain ⟨inputs, reads, outputs⟩ := nextEvaluates.unfed bearerIn isFed
        obtain ⟨tensor, feeds, atK⟩ :=
          reads.input (show k < (identityNode id old).num_inputs from inside)
        refine (outputs k).trans ?_
        refine (pureOps.identityN _ _ _ _ _ atK).trans ?_
        cases (added.feeds _ _ _ _).mp feeds with
        | inl before =>
            exact absurd (feeds_ends pure_.wf before).2.1
              (added.new old oldIn id found)
        | inr made =>
            obtain ⟨other, otherIn, otherFound, atSrc, atSlot, _⟩ := made
            obtain rfl := added.injective old oldIn other otherIn id found
              otherFound
            rw [← atSrc, ← atSlot]

end Agree

/-- Truth values that go from any input to the outputs, but for `IdentityN`. -/
def spread : Interpretation Bool := fun _ op _ inputs slot =>
  if op = "IdentityN" ∧ 0 ≤ slot ∧
    slot < inputs.length then inputs.getD slot.toNat false
  else inputs.any id

theorem pure_spread : Pure spread where
  nameless := fun _ _ _ _ _ => rfl
  identityN := by
    intro name attrs inputs slot value there
    have inside : slot < inputs.length := (List.getElem?_eq_some_iff.mp there).1
    have identity : "IdentityN" = "IdentityN" ∧ (0 : Int) ≤ slot ∧
        (slot : Int) < inputs.length :=
      ⟨rfl, by omega, by omega⟩
    rw [spread, if_pos identity, Int.toNat_natCast,
      List.getD_eq_getElem?_getD, there, Option.getD_some]

/-- A node computes by `spread` the outputs that some passing input makes
true. -/
theorem computes_spread {graph : Graph} {val : Nat × Int → Bool} {node : Node}
    (complete : ∀ input < node.num_inputs, ∃ tensor : Nat × Int,
      graph.Feeds tensor.1 tensor.2 node.id input)
    (single : ∀ {input : Int} {tensor other : Nat × Int},
      graph.Feeds tensor.1 tensor.2 node.id input →
      graph.Feeds other.1 other.2 node.id input → tensor = other)
    (inRange : ∀ {input : Int} {tensor : Nat × Int},
      graph.Feeds tensor.1 tensor.2 node.id input → ∃ k : Nat, input = k ∧
      k < node.num_inputs)
    (outputs : ∀ slot, val (node.id, slot) = true ↔ ∃ tensor input,
      graph.Feeds tensor.1 tensor.2 node.id input ∧ Passes node input slot ∧
        val tensor = true) : graph.Computes spread val node := by
  have each : ∀ index ∈ List.range node.num_inputs, ∃ value,
      graph.InputValue val node.id index value := by
    intro index member
    obtain ⟨tensor, feeds⟩ := complete index (List.mem_range.mp member)
    exact ⟨val tensor, tensor, feeds, rfl⟩
  obtain ⟨inputs, reads⟩ := forall₂_of_forall each
  have length := Graph.Reads.length reads
  refine ⟨inputs, reads, fun slot => ?_⟩
  rw [Bool.eq_iff_iff, outputs, spread]
  by_cases passesOn : node.type_string = "IdentityN" ∧ 0 ≤ slot ∧
      slot < inputs.length
  · rw [if_pos passesOn]
    obtain ⟨isIdentity, nonneg, inside⟩ := passesOn
    obtain ⟨k, rfl⟩ := Int.eq_ofNat_of_zero_le nonneg
    have inside : k < node.num_inputs := by omega
    obtain ⟨tensor, feeds, atK⟩ := Graph.Reads.input reads inside
    rw [Int.toNat_natCast, List.getD_eq_getElem?_getD, atK, Option.getD_some]
    constructor
    · intro swayed
      obtain ⟨other, input, otherFeeds, passes, isTrue⟩ := swayed
      obtain rfl : (k : Int) = input := passes isIdentity nonneg (by omega)
      rwa [single feeds otherFeeds]
    · intro isTrue
      exact ⟨tensor, k, feeds, fun _ _ _ => rfl, isTrue⟩
  · rw [if_neg passesOn, List.any_eq_true]
    rw [length] at passesOn
    constructor
    · intro swayed
      obtain ⟨tensor, input, feeds, _, isTrue⟩ := swayed
      obtain ⟨k, rfl, inside⟩ := inRange feeds
      obtain ⟨other, otherFeeds, atK⟩ := Graph.Reads.input reads inside
      refine ⟨val other, List.mem_of_getElem? atK, ?_⟩
      rwa [← single feeds otherFeeds]
    · intro some_
      obtain ⟨value, member, isTrue⟩ := some_
      obtain ⟨k, inside, rfl⟩ := List.getElem_of_mem member
      obtain ⟨tensor, feeds, atK⟩ := Graph.Reads.input reads (length ▸ inside)
      rw [List.getElem?_eq_getElem inside, Option.some.injEq] at atK
      refine ⟨tensor, k, feeds, fun isIdentity nonneg below => ?_, atK ▸ isTrue⟩
      exact absurd ⟨isIdentity, nonneg, below⟩ passesOn

theorem feeds_num_inputs {graph : Graph} (wf : graph.WF) {node : Node}
    (member : node ∈ graph.nodes) {tensor : Nat × Int} {input : Int}
    (feeds : graph.Feeds tensor.1 tensor.2 node.id input) :
    ∃ k : Nat, input = k ∧ k < node.num_inputs := by
  obtain ⟨edge, inGraph, data, _, _, atDst, rfl⟩ := feeds
  obtain ⟨_, nonneg, inside⟩ := wf.slots edge inGraph data
  rw [atDst, wf.node_eq member] at inside
  obtain ⟨k, atK⟩ := Int.eq_ofNat_of_zero_le nonneg
  exact ⟨k, atK, by omega⟩

section Spread

open Classical in
/-- The truth values that show what is swayed: a feed is true if its node gets
an identity node. -/
noncomputable def swayedValues (item : GrapplerItem) (gets : Node → Prop)
    (name : String) (_ : Int) : Bool :=
  decide (∃ node ∈ item.graph.op_nodes, node.name = name ∧ gets node)

open Classical in
/-- Before nodes are added, what is swayed is true. -/
noncomputable def swayed (item : GrapplerItem) (gets : Node → Prop)
    (tensor : Nat × Int) : Bool :=
  decide (Sways item gets tensor)

open Classical in
/-- Afterwards only the identity nodes of fed nodes have a true output. -/
noncomputable def confined (item : GrapplerItem) (copy : Nat → Option Nat)
    (tensor : Nat × Int) : Bool :=
  decide (∃ old ∈ item.graph.nodes, old.name ∈ item.feed ∧
      copy old.id = some tensor.1)

theorem evaluates_swayed (pure_ : PureItem item) :
    EvaluatesFed item.graph spread (fedWith item (swayedValues item gets))
      (swayed item gets) := by
  classical
  have wf := pure_.wf
  intro node member
  have inNodes := (List.mem_filter.mp member).1
  by_cases isFed : node.name ∈ item.feed
  · rw [fedWith, if_pos isFed]
    intro slot
    apply decide_eq_decide.mpr
    constructor
    · intro sways
      generalize atTensor : (node.id, slot) = tensor at sways
      cases sways with
      | @fed other otherIn otherFed given =>
          obtain ⟨sameId, _⟩ := Prod.mk.inj atTensor
          obtain rfl := wf.id_injective inNodes
            (List.mem_filter.mp otherIn).1 sameId
          exact ⟨node, member, rfl, given⟩
      | @step other otherIn unfed =>
          obtain ⟨sameId, _⟩ := Prod.mk.inj atTensor
          obtain rfl := wf.id_injective inNodes
            (List.mem_filter.mp otherIn).1 sameId
          exact absurd isFed unfed
    · rintro ⟨other, otherIn, sameName, given⟩
      obtain rfl := wf.name_injective (List.mem_filter.mp otherIn).1
        inNodes sameName
      exact .fed member isFed given slot
  · rw [fedWith, if_neg isFed]
    apply computes_spread
    case complete =>
      intro input inside
      obtain ⟨src, src_output, feeds⟩ := pure_.complete node member input inside
      exact ⟨(src, src_output), feeds⟩
    case single =>
      intro input tensor other feeds otherFeeds
      obtain ⟨sameSrc, sameSlot⟩ := wf.single_feeds feeds otherFeeds
      exact Prod.ext sameSrc sameSlot
    case inRange => exact feeds_num_inputs wf inNodes
    case outputs =>
      intro slot
      rw [swayed, decide_eq_true_eq]
      constructor
      · intro sways
        generalize atTensor : (node.id, slot) = tensor at sways
        cases sways with
        | @fed other otherIn otherFed =>
            obtain ⟨sameId, _⟩ := Prod.mk.inj atTensor
            obtain rfl := wf.id_injective inNodes
              (List.mem_filter.mp otherIn).1 sameId
            exact absurd otherFed isFed
        | @step other otherIn unfed tensor sways input feeds slot passes =>
            obtain ⟨sameId, rfl⟩ := Prod.mk.inj atTensor
            obtain rfl := wf.id_injective inNodes
              (List.mem_filter.mp otherIn).1 sameId
            exact ⟨tensor, input, feeds, passes, decide_eq_true sways⟩
      · rintro ⟨tensor, input, feeds, passes, isTrue⟩
        exact .step member isFed (of_decide_eq_true isTrue) feeds passes

/-- Nodes that were there have false outputs afterwards. -/
theorem confined_old (added : Added item.graph gets copy name next)
    {node : Node} (member : node ∈ item.graph.nodes) (slot : Int) :
    confined item copy (node.id, slot) = false := by
  apply decide_eq_false
  rintro ⟨old, oldIn, _, found⟩
  exact added.new old oldIn _ found ⟨node, member, rfl⟩

theorem confined_copy (added : Added item.graph gets copy name next)
    {node : Node} (member : node ∈ item.graph.nodes) {id : Nat}
    (found : copy node.id = some id) (slot : Int) :
    confined item copy (id, slot) = true ↔ node.name ∈ item.feed := by
  rw [confined, decide_eq_true_eq]
  constructor
  · rintro ⟨old, oldIn, isFed, oldFound⟩
    rwa [added.injective node member old oldIn id found oldFound]
  · intro isFed
    exact ⟨node, member, isFed, found⟩

theorem feeds_copy (pure_ : PureItem item)
    (added : Added item.graph gets copy name next) {old : Node}
    (member : old ∈ item.graph.nodes) {id : Nat} (found : copy old.id = some id)
    {u : Nat} {a b : Int} : next.Feeds u a id b ↔
      u = old.id ∧ a = b ∧ ∃ k : Nat, b = k ∧ k < old.num_outputs := by
  rw [added.feeds]
  constructor
  · intro feeds
    cases feeds with
    | inl before =>
        exact absurd (feeds_ends pure_.wf before).2.1
          (added.new old member id found)
    | inr made =>
        obtain ⟨other, otherIn, otherFound, rest⟩ := made
        obtain rfl := added.injective old member other otherIn id found
          otherFound
        exact rest
  · intro rest
    exact .inr ⟨old, member, found, rest⟩

theorem evaluates_confined (pure_ : PureItem item)
    (added : Added item.graph gets copy name next) :
    EvaluatesFed next spread (fedWith item (swayedValues item gets))
      (confined item copy) := by
  classical
  have wf := pure_.wf
  intro made madeIn
  obtain ⟨madeNodes, madeOp⟩ := List.mem_filter.mp madeIn
  cases (added.nodes made).mp madeNodes with
  | inl isOld =>
      obtain ⟨node, inNodes, rfl⟩ := isOld
      have member : node ∈ item.graph.op_nodes :=
        List.mem_filter.mpr ⟨inNodes, madeOp⟩
      by_cases isFed : name node.id ∈ item.feed
      · rw [fedWith, if_pos
          (show (setName (name node.id) node).name ∈ item.feed from isFed)]
        intro slot
        refine (confined_old added inNodes slot).trans (decide_eq_false ?_).symm
        rintro ⟨other, otherIn, sameName, given⟩
        obtain ⟨nodeFed, notGiven⟩ := (name_fed pure_ added member).mp isFed
        have noCopy : copy node.id = none := by
          rw [← Option.not_isSome_iff_eq_none, added.copied node inNodes]
          exact notGiven
        have sameName : other.name = node.name :=
          sameName.trans (added.kept node inNodes noCopy)
        obtain rfl := wf.name_injective (List.mem_filter.mp otherIn).1
          inNodes sameName
        exact notGiven given
      · rw [fedWith, if_neg
          (show (setName (name node.id) node).name ∉ item.feed from isFed)]
        apply computes_spread
        case complete =>
          intro input inside
          obtain ⟨src, src_output, feeds⟩ :=
            pure_.complete node member input inside
          exact ⟨(src, src_output), (feeds_old added member).mpr feeds⟩
        case single =>
          intro input tensor other feeds otherFeeds
          obtain ⟨sameSrc, sameSlot⟩ :=
            wf.single_feeds ((feeds_old added member).mp feeds)
              ((feeds_old added member).mp otherFeeds)
          exact Prod.ext sameSrc sameSlot
        case inRange =>
          intro input tensor feeds
          exact feeds_num_inputs wf inNodes ((feeds_old added member).mp feeds)
        case outputs =>
          intro slot
          have isFalse := confined_old added inNodes slot
          constructor
          · intro isTrue
            exact absurd (isFalse.symm.trans isTrue) (by simp)
          · rintro ⟨tensor, input, feeds, _, isTrue⟩
            obtain ⟨srcNode, srcOp⟩ :=
              (feeds_ends wf ((feeds_old added member).mp feeds)).1
            have srcFalse := confined_old added (wf.node_mem srcNode).1 tensor.2
            rw [Graph.node_id] at srcFalse
            exact absurd (srcFalse.symm.trans isTrue) (by simp)
  | inr isCopy =>
      obtain ⟨node, inNodes, id, found, rfl⟩ := isCopy
      have given : gets node := by
        rw [← added.copied node inNodes, found]
        rfl
      by_cases isFed : node.name ∈ item.feed
      · rw [fedWith, if_pos
          (show (identityNode id node).name ∈ item.feed from isFed)]
        intro slot
        have isTrue := (confined_copy added inNodes found slot).mpr isFed
        refine isTrue.trans (decide_eq_true ?_).symm
        obtain ⟨other, otherIn, sameName⟩ := pure_.feed _ isFed
        obtain rfl := wf.name_injective (List.mem_filter.mp otherIn).1
          inNodes sameName
        exact ⟨other, otherIn, rfl, given⟩
      · rw [fedWith, if_neg
          (show (identityNode id node).name ∉ item.feed from isFed)]
        have feedsCopy :=
          @feeds_copy item gets copy name next pure_ added node inNodes id found
        apply computes_spread
        case complete =>
          intro input inside
          exact ⟨(node.id, input), feedsCopy.mpr ⟨rfl, rfl, input, rfl, inside⟩⟩
        case single =>
          intro input tensor other feeds otherFeeds
          obtain ⟨atSrc, atSlot, _⟩ := feedsCopy.mp feeds
          obtain ⟨otherSrc, otherSlot, _⟩ := feedsCopy.mp otherFeeds
          exact Prod.ext (atSrc.trans otherSrc.symm)
            (atSlot.trans otherSlot.symm)
        case inRange =>
          intro input tensor feeds
          exact (feedsCopy.mp feeds).2.2
        case outputs =>
          intro slot
          constructor
          · intro isTrue
            exact absurd ((confined_copy added inNodes found slot).mp isTrue)
              isFed
          · rintro ⟨tensor, input, feeds, _, isTrue⟩
            obtain ⟨atSrc, _⟩ := feedsCopy.mp feeds
            have srcFalse := confined_old added inNodes tensor.2
            rw [← atSrc] at srcFalse
            exact absurd (srcFalse.symm.trans isTrue) (by simp)

end Spread

theorem isOp_copy (pure_ : PureItem item)
    (added : Added item.graph gets copy name next) {node : Node}
    (member : node ∈ item.graph.nodes) {id : Nat}
    (found : copy node.id = some id) :
    (identityNode id node).isOp = true := by
  have isNew := added.new node member id found
  have notSource : id ≠ 0 := by
    rintro rfl
    exact isNew pure_.wf.source
  have notSink : id ≠ 1 := by
    rintro rfl
    exact isNew pure_.wf.sink
  simp [Node.isOp, Node.isSource, Node.isSink, identityNode, notSource, notSink]

/-- In the rewritten graph one node bears the name of an old node. -/
theorem exists_bearer (pure_ : PureItem item)
    (added : Added item.graph gets copy name next) {node : Node}
    (member : node ∈ item.graph.op_nodes) :
    ∃ bearer ∈ next.op_nodes, bearer.name = node.name ∧
      (∀ other ∈ next.nodes, other.name = node.name → other = bearer) ∧
      (¬ gets node → bearer = node) ∧
      (∀ id, copy node.id = some id → bearer = identityNode id node) := by
  have wf := pure_.wf
  obtain ⟨inNodes, nodeOp⟩ := List.mem_filter.mp member
  have copied := added.copied node inNodes
  have isNode : ∀ old ∈ item.graph.nodes, name old.id = node.name →
      old = node ∧ copy old.id = none := by
    intro old oldIn named
    have noCopy : copy old.id = none := by
      rw [← Option.not_isSome_iff_eq_none]
      intro some_
      exact added.renamed old oldIn some_ node inNodes named.symm
    rw [added.kept old oldIn noCopy] at named
    exact ⟨wf.name_injective oldIn inNodes named, noCopy⟩
  cases found : copy node.id with
  | none =>
      have kept := added.kept node inNodes found
      have same : setName (name node.id) node = node := by
        rw [setName, kept]
      refine ⟨node, same ▸ setName_mem added member, rfl, ?_,
        fun _ => rfl, by simp⟩
      intro other otherIn named
      cases (added.nodes other).mp otherIn with
      | inl isOld =>
          obtain ⟨old, oldIn, rfl⟩ := isOld
          obtain ⟨rfl, _⟩ := isNode old oldIn named
          exact same
      | inr isCopy =>
          obtain ⟨old, oldIn, id, oldFound, rfl⟩ := isCopy
          obtain rfl := wf.name_injective oldIn inNodes named
          exact absurd (found.symm.trans oldFound) (by simp)
  | some id =>
      have inNext : identityNode id node ∈ next.nodes :=
        (added.nodes _).mpr (.inr ⟨node, inNodes, id, found, rfl⟩)
      have given : gets node := by simpa [found] using copied
      refine ⟨identityNode id node,
        List.mem_filter.mpr ⟨inNext, isOp_copy pure_ added inNodes found⟩, rfl,
        ?_,
        fun notGiven => absurd given notGiven, ?_⟩
      · intro other otherIn named
        cases (added.nodes other).mp otherIn with
        | inl isOld =>
            obtain ⟨old, oldIn, rfl⟩ := isOld
            obtain ⟨rfl, noCopy⟩ := isNode old oldIn named
            exact absurd (found.symm.trans noCopy) (by simp)
        | inr isCopy =>
            obtain ⟨old, oldIn, otherId, oldFound, rfl⟩ := isCopy
            obtain rfl := wf.name_injective oldIn inNodes named
            rw [found, Option.some.injEq] at oldFound
            rw [oldFound]
      · intro otherId same
        rw [Option.some.inj same]

/-- If every fetch is kept then no fetch is swayed. -/
theorem unswayed_of_fetchesKept (pure_ : PureItem item)
    (added : Added item.graph gets copy name next)
    (kept : FetchesKept item next) :
    Unswayed item gets := by
  intro f inFetch node member named unfed k inside sways
  have inNodes := (List.mem_filter.mp member).1
  obtain ⟨bearer, bearerIn, bearerNamed, _, notGiven, isCopy⟩ :=
    exists_bearer pure_ added member
  have same := kept Bool spread pure_spread _ _ _ (evaluates_swayed pure_)
    (evaluates_confined pure_ added) f inFetch node member named bearer bearerIn
    (bearerNamed.trans named) k inside
  have isTrue : swayed item gets (node.id, k) = true := by
    classical
    exact decide_eq_true sways
  have isFalse : confined item copy (bearer.id, k) = false := by
    cases found : copy node.id with
    | none =>
        have none_ : ¬ gets node := by
          rw [← added.copied node inNodes, found]
          simp
        rw [notGiven none_]
        exact confined_old added inNodes k
    | some id =>
        rw [isCopy id found, ← Bool.not_eq_true]
        exact fun shown =>
          unfed ((confined_copy added inNodes found k).mp shown)
  rw [isTrue, isFalse] at same
  exact absurd same (by simp)

theorem fetchesKept_iff (pure_ : PureItem item)
    (added : Added item.graph gets copy name next) :
    FetchesKept item next ↔ Unswayed item gets :=
  ⟨unswayed_of_fetchesKept pure_ added, fetchesKept_of_unswayed pure_ added⟩

end Kept

section Optimize

variable {item : GrapplerItem} {disabled_ops_set : OrderedSet String}
  {newName : Nat → String → String}

/-- The fetched nodes behind which the pass puts an identity node. -/
def GivenIdentity (item : GrapplerItem) (disabled_ops_set : OrderedSet String)
    (node : Node) : Prop :=
  node.name ∈ fetchNodes item ∧ node.type_string ∉ disabled_ops_set ∧
    node.num_outputs ≠ 0 ∧
    hasRefType item.ref_output node = false

theorem mem_disabledNodes (wf : item.graph.WF) {node : Node}
    (member : node ∈ item.graph.nodes) :
    node.name ∈ disabledNodes item.graph disabled_ops_set ↔
      node.type_string ∈ disabled_ops_set := by
  rw [disabledNodes, OrderedSet.mem_ofList, List.mem_map]
  constructor
  · rintro ⟨other, otherIn, sameName⟩
    obtain ⟨otherNodes, isDisabled⟩ := List.mem_filter.mp otherIn
    obtain rfl := wf.name_injective otherNodes member sameName
    exact of_decide_eq_true isDisabled
  · intro isDisabled
    exact ⟨node, List.mem_filter.mpr ⟨member, decide_eq_true isDisabled⟩, rfl⟩

theorem mem_nodesToAddIdentityTo (wf : item.graph.WF) {node : Node}
    (member : node ∈ item.graph.nodes) :
    node.name ∈ nodesToAddIdentityTo item disabled_ops_set ↔
      node.name ∈ fetchNodes item ∧ node.type_string ∉ disabled_ops_set := by
  rw [nodesToAddIdentityTo, OrderedSet.mem_ofList, List.mem_filter,
    decide_eq_true_eq, mem_disabledNodes wf member, OrderedSet.mem_elems]

theorem optimize_added (pure_ : PureItem item)
    (fresh : Fresh item.graph newName) (disabled_ops_set : OrderedSet String)
    (name_counter : Nat) :
    ∃ copy name, Added item.graph
      (fun node => node ∈ item.graph.op_nodes ∧
        GivenIdentity item disabled_ops_set node)
      copy name (optimize newName disabled_ops_set name_counter
        item).graph := by
  have wf := pure_.wf
  obtain ⟨copy, name, added⟩ := @addIdentityN_added _ item.ref_output _
    (nodesToAddIdentityTo item disabled_ops_set) wf fresh name_counter
  refine ⟨copy, name, added.congr fun node member => ?_⟩
  rw [GetsIdentity, GivenIdentity, mem_nodesToAddIdentityTo wf member,
    and_assoc]

/-- Before the clustering every fetch has its value if and only if no fetched
node that is not fed depends on a fed node that was given an identity node.
What bears the name of a fetch is skipped or disabled in any case. -/
theorem optimize_fetches (pure_ : PureItem item)
    (fresh : Fresh item.graph newName) (disabled_ops_set : OrderedSet String)
    (name_counter : Nat) :
    (FetchesKept item
      (optimize newName disabled_ops_set name_counter item).graph ↔
      Unswayed item fun node =>
        node ∈ item.graph.op_nodes ∧ GivenIdentity item disabled_ops_set node) ∧
    ∀ f ∈ item.fetch, ∃ bearer ∈
      (optimize newName disabled_ops_set name_counter item).graph.op_nodes,
        bearer.name = fetchName f ∧
        (∀ other ∈
          (optimize newName disabled_ops_set name_counter item).graph.nodes,
          other.name = fetchName f → other = bearer) ∧
        (bearer.name ∈
          (optimize newName disabled_ops_set name_counter
            item).skip_these_nodes ∨
          bearer.type_string ∈ disabled_ops_set) := by
  obtain ⟨copy, name, added⟩ :=
    optimize_added pure_ fresh disabled_ops_set name_counter
  refine ⟨fetchesKept_iff pure_ added, fun f inFetch => ?_⟩
  obtain ⟨node, member, named⟩ := pure_.fetch f inFetch
  have inNodes := (List.mem_filter.mp member).1
  obtain ⟨bearer, bearerIn, bearerNamed, unique, notGiven, _⟩ :=
    exists_bearer pure_ added member
  rw [← named]
  refine ⟨bearer, bearerIn, bearerNamed, unique, ?_⟩
  by_cases isDisabled : node.type_string ∈ disabled_ops_set
  · rw [notGiven fun given => given.2.2.1 isDisabled]
    exact .inr isDisabled
  · have fetched : node.name ∈ fetchNodes item := by
      rw [fetchNodes, OrderedSet.mem_ofList, named]
      exact List.mem_map_of_mem inFetch
    have listed :=
      (mem_nodesToAddIdentityTo pure_.wf inNodes).mpr ⟨fetched, isDisabled⟩
    rw [bearerNamed]
    refine .inl (OrderedSet.mem_ofList.mpr ?_)
    exact List.mem_append_right _ listed

/-- The names that `Graph::NewName` gives. -/
def numberedName (counter : Nat) (base : String) : String :=
  base ++ "/_" ++ toString counter

theorem fresh_numberedName {graph : Graph}
    (plain : ∀ node ∈ graph.nodes, '/' ∉ node.name.toList) :
    Fresh graph numberedName := by
  intro counter base node member same
  have slash : '/' ∈ (numberedName counter base).toList := by
    rw [numberedName, String.toList_append, String.toList_append]
    exact List.mem_append_left _ (List.mem_append_right _ (by decide))
  exact plain node member (same ▸ slash)

/-- A fed node and its reader. -/
def fedItem (fetch : List String) : GrapplerItem where
  graph := {
    nodes := [
      ⟨0, "_SOURCE", "NoOp", [], [], [], "", []⟩,
      ⟨1, "_SINK", "NoOp", [], [], [], "", []⟩,
      ⟨2, "x", "Placeholder", [], [], [.DT_FLOAT], "", []⟩,
      ⟨3, "y", "Neg", [], [.DT_FLOAT], [.DT_FLOAT], "", ["x"]⟩]
    edges := [⟨0, 0, -1, 2, -1⟩, ⟨1, 2, 0, 3, 0⟩, ⟨2, 3, -1, 1, -1⟩] }
  ref_output := fun _ _ => false
  feed := ["x"]
  fetch := fetch
  keep_ops := []
  init_ops := []

theorem fedItem_pure {fetch : List String}
    (named : ∀ f ∈ fetch, ∃ node ∈ (fedItem fetch).graph.op_nodes,
      node.name = fetchName f) :
    PureItem (fedItem fetch) where
  wf := by
    change (fedItem []).graph.WF
    constructor <;> decide
  acyclic := by
    change Acyclic (fedItem []).graph.DataEdge
    apply acyclic_of_rank id
    rintro _ _ ⟨_, _, edge, member, data, rfl, _, rfl, _⟩
    have rising : ∀ edge ∈ (fedItem []).graph.edges,
        edge.isControlEdge = false →
        edge.src < edge.dst := by decide
    exact rising edge member data
  complete := by
    change ∀ node ∈ (fedItem []).graph.op_nodes, ∀ input < node.num_inputs,
      ∃ src src_output, (fedItem []).graph.Feeds src src_output node.id input
    intro node member input inside
    change node ∈ [_, _] at member
    simp only [List.mem_cons, List.not_mem_nil, or_false] at member
    rcases member with rfl | rfl
    · exact absurd inside (Nat.not_lt_zero input)
    · obtain rfl : input = 0 := Nat.lt_one_iff.mp inside
      exact ⟨2, 0, ⟨1, 2, 0, 3, 0⟩, by decide⟩
  feed := by
    change ∀ name ∈ ["x"], ∃ node ∈ (fedItem []).graph.op_nodes,
      node.name = name
    decide
  fetch := named

theorem fedItem_fresh (fetch : List String) :
    Fresh (fedItem fetch).graph numberedName := by
  apply fresh_numberedName
  change ∀ node ∈ (fedItem []).graph.nodes, '/' ∉ node.name.toList
  decide

/-- When both are fetched, the reader no longer sees the feed. -/
theorem optimize_fed_fetched : PureItem (fedItem ["x:0", "y:0"]) ∧
    Fresh (fedItem ["x:0", "y:0"]).graph numberedName ∧
    ¬ FetchesKept (fedItem ["x:0", "y:0"])
      (optimize numberedName ∅ 0 (fedItem ["x:0", "y:0"])).graph := by
  have pure_ : PureItem (fedItem ["x:0", "y:0"]) := fedItem_pure (by decide)
  have fresh := fedItem_fresh ["x:0", "y:0"]
  refine ⟨pure_, fresh, fun kept => ?_⟩
  obtain ⟨copy, name, added⟩ := optimize_added pure_ fresh ∅ 0
  have unswayed := unswayed_of_fetchesKept pure_ added kept
  have member : ⟨2, "x", "Placeholder", [], [], [.DT_FLOAT], "", []⟩ ∈
      (fedItem ["x:0", "y:0"]).graph.op_nodes := by decide
  have reader : ⟨3, "y", "Neg", [], [.DT_FLOAT], [.DT_FLOAT], "", ["x"]⟩ ∈
      (fedItem ["x:0", "y:0"]).graph.op_nodes := by decide
  refine unswayed "y:0" (by decide) _ reader (by decide) (by decide) 0
    (by decide) ?_
  have feeds : (fedItem ["x:0", "y:0"]).graph.Feeds 2 0 3 0 :=
    ⟨⟨1, 2, 0, 3, 0⟩, by decide⟩
  refine .step reader (by decide) (.fed member (by decide) ⟨member, ?_⟩ 0) feeds
    (by simp [Passes])
  exact ⟨by decide, by decide, by decide, rfl⟩

theorem optimize_fed : FetchesKept (fedItem ["y:0"])
    (optimize numberedName ∅ 0 (fedItem ["y:0"])).graph := by
  refine (optimize_fetches (fedItem_pure (by decide))
      (fedItem_fresh _) ∅ 0).1.mpr ?_
  intro f _ node _ _ _ k _ sways
  generalize (node.id, (k : Int)) = tensor at sways
  induction sways with
  | fed member isFed given slot =>
      have only_x : _ = "x" := List.mem_singleton.mp isFed
      have fetched := given.2.1
      rw [only_x] at fetched
      exact absurd fetched (by decide)
  | step _ _ _ _ _ ih => exact ih

end Optimize

end NGraphBridge.NgraphOptimizer
