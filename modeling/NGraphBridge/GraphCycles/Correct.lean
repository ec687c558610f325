import NGraphBridge.GraphCycles.Rep
import NGraphBridge.Lib.Digraph

/-!
# Insertion and contraction are exact

`insertEdge` refuses an edge exactly when it would close a cycle, and
`contractEdge` refuses an edge exactly when a second path joins its ends.  The
invariant is the one `CheckInvariants` checks, with the bookkeeping of the
adjacency sets.
-/

namespace NGraphBridge.GraphCycles

open Relation NGraphBridge.Digraph

namespace Rep

def Edge (r : Rep) (x y : Nat) : Prop := y ∈ r.outs x

/-- The numbers handed out and not taken back. -/
def Live (r : Rep) (x : Nat) : Prop := x < r.size ∧ x ∉ r.free_nodes

/-- The representation agrees with itself; nothing is said about the order. -/
structure Shape (r : Rep) : Prop where
  live : ∀ {x y}, r.Edge x y → r.Live x ∧ r.Live y
  mirror : ∀ x y, x ∈ r.ins y ↔ r.Edge x y
  rank_lt : ∀ {x}, x < r.size → r.rank x < r.size
  rank_injective : ∀ {x y}, x < r.size → y < r.size →
    r.rank x = r.rank y → x = y
  unvisited : ∀ x, r.visited x = false
  freeInside : ∀ x ∈ r.free_nodes, x < r.size
  freeDistinct : r.free_nodes.Nodup

/-- Edges go up the ranks. -/
structure Inv (r : Rep) : Prop extends Shape r where
  increasing : ∀ {x y}, r.Edge x y → r.rank x < r.rank y

theorem inv_empty : empty.Inv where
  live := by simp [Edge, empty]
  mirror := by simp [Edge, empty]
  rank_lt := by simp [empty]
  rank_injective := by simp [empty]
  unvisited := by simp [empty]
  freeInside := by simp [empty]
  freeDistinct := by simp [empty]
  increasing := by simp [Edge, empty]

variable {r : Rep} {x y : Nat}

theorem Inv.acyclic (inv : r.Inv) : Acyclic r.Edge :=
  acyclic_of_rank r.rank (fun _ _ edge => inv.increasing edge)

/-- Nothing but ranks and visited bits of two representations differ. -/
structure SameGraph (r s : Rep) : Prop where
  size : s.size = r.size
  free_nodes : s.free_nodes = r.free_nodes
  outs : s.outs = r.outs
  ins : s.ins = r.ins

theorem SameGraph.edge {s : Rep} (same : SameGraph r s) (u v : Nat) :
    s.Edge u v ↔ r.Edge u v := by
  rw [Edge, Edge, same.outs]

theorem SameGraph.live {s : Rep} (same : SameGraph r s) (u : Nat) :
    s.Live u ↔ r.Live u := by
  rw [Live, Live, same.size, same.free_nodes]

theorem newNode_inv (inv : r.Inv) : r.newNode.1.Inv := by
  unfold newNode
  cases free : r.free_nodes with
  | nil =>
      have old : ∀ {u v}, r.Edge u v → u ≠ r.size ∧ v ≠ r.size := by
        intro u v edge
        obtain ⟨⟨uIn, _⟩, vIn, _⟩ := inv.live edge
        exact ⟨uIn.ne, vIn.ne⟩
      have noneFrom : ∀ u v, v ∈ Function.update r.outs r.size [] u ↔
          r.Edge u v := by
        intro u v
        by_cases new : u = r.size
        · subst new
          simp only [Function.update_self, List.not_mem_nil, false_iff]
          intro edge
          exact (old edge).1 rfl
        · rw [Function.update_of_ne new, Edge]
      have noneTo : ∀ u v, u ∈ Function.update r.ins r.size [] v ↔
          r.Edge u v := by
        intro u v
        by_cases new : v = r.size
        · subst new
          simp only [Function.update_self, List.not_mem_nil, false_iff]
          intro edge
          exact (old edge).2 rfl
        · rw [Function.update_of_ne new, inv.mirror]
      have rankOld : ∀ {u}, u < r.size →
          Function.update r.rank r.size r.size u = r.rank u := by
        intro u inside
        exact Function.update_of_ne inside.ne _ _
      constructor
      · constructor
        · intro u v edge
          obtain ⟨⟨uIn, _⟩, vIn, _⟩ := inv.live ((noneFrom u v).mp edge)
          simp only [Live, List.not_mem_nil, not_false_eq_true, and_true]
          exact ⟨by omega, by omega⟩
        · intro u v
          rw [noneTo]
          exact (noneFrom u v).symm
        · intro u inside
          rcases Nat.lt_succ_iff_lt_or_eq.mp inside with old | rfl
          · have below := inv.rank_lt old
            simp only [rankOld old]
            omega
          · simp
        · intro u v uIn vIn same
          rcases Nat.lt_succ_iff_lt_or_eq.mp uIn with uOld | rfl
          · rcases Nat.lt_succ_iff_lt_or_eq.mp vIn with vOld | rfl
            · simp only [rankOld uOld, rankOld vOld] at same
              exact inv.rank_injective uOld vOld same
            · simp only [rankOld uOld, Function.update_self] at same
              exact absurd same (inv.rank_lt uOld).ne
          · rcases Nat.lt_succ_iff_lt_or_eq.mp vIn with vOld | rfl
            · simp only [rankOld vOld, Function.update_self] at same
              exact absurd same (inv.rank_lt vOld).ne'
            · rfl
        · intro u
          by_cases new : u = r.size
          · subst new
            simp
          · simp [Function.update_of_ne new, inv.unvisited]
        · simp
        · simp
      · intro u v edge
        have edge := (noneFrom u v).mp edge
        obtain ⟨⟨uIn, _⟩, vIn, _⟩ := inv.live edge
        simp only [rankOld uIn, rankOld vIn]
        exact inv.increasing edge
  | cons node free_nodes =>
      have inside := inv.freeInside
      have distinct := inv.freeDistinct
      rw [free] at inside distinct
      constructor
      · refine ⟨?_, inv.mirror, inv.rank_lt, inv.rank_injective,
          inv.unvisited, ?_, ?_⟩
        · intro u v edge
          obtain ⟨⟨uIn, uUsed⟩, vIn, vUsed⟩ := inv.live edge
          simp only [free, List.mem_cons, not_or] at uUsed vUsed
          exact ⟨⟨uIn, uUsed.2⟩, vIn, vUsed.2⟩
        · intro u member
          exact inside u (by simp [member])
        · exact (List.nodup_cons.mp distinct).2
      · exact inv.increasing

theorem newNode_edge (inv : r.Inv) (u v : Nat) :
    r.newNode.1.Edge u v ↔ r.Edge u v := by
  unfold newNode
  cases free : r.free_nodes with
  | nil =>
      simp only [Edge]
      by_cases new : u = r.size
      · subst new
        simp only [Function.update_self, List.not_mem_nil, false_iff]
        intro edge
        exact absurd (inv.live edge).1.1 (lt_irrefl _)
      · rw [Function.update_of_ne new]
  | cons node free_nodes => simp [Edge]

theorem newNode_live (inv : r.Inv) (u : Nat) :
    r.newNode.1.Live u ↔ r.Live u ∨ u = r.newNode.2 := by
  unfold newNode
  cases free : r.free_nodes with
  | nil =>
      simp only [Live, free, List.not_mem_nil, not_false_eq_true, and_true]
      omega
  | cons node free_nodes =>
      have inside := inv.freeInside
      have distinct := inv.freeDistinct
      rw [free] at inside distinct
      simp only [Live, free, List.mem_cons, not_or]
      constructor
      · rintro ⟨uIn, unused⟩
        by_cases new : u = node
        · exact .inr new
        · exact .inl ⟨uIn, new, unused⟩
      · rintro (⟨uIn, _, unused⟩ | rfl)
        · exact ⟨uIn, unused⟩
        · exact ⟨inside u (by simp), (List.nodup_cons.mp distinct).1⟩

theorem newNode_fresh (r : Rep) : ¬ r.Live r.newNode.2 := by
  unfold newNode
  cases free : r.free_nodes with
  | nil => simp [Live]
  | cons node free_nodes => simp [Live, free]

theorem edge_link (u v : Nat) : (r.link x y).Edge u v ↔
    Digraph.insert r.Edge x y u v := by
  simp only [Edge, link, Digraph.insert]
  by_cases source : u = x
  · subst source
    simp only [Function.update_self, List.mem_cons, true_and]
    exact or_comm
  · simp [source]

theorem edge_removeEdge (u v : Nat) :
    (r.removeEdge x y).Edge u v ↔ remove r.Edge x y u v := by
  simp only [Edge, removeEdge, remove]
  by_cases source : u = x
  · subst source
    simp
  · simp [source]

theorem Shape.link (shape : r.Shape) (xLive : r.Live x) (yLive : r.Live y) :
    (r.link x y).Shape := by
  refine ⟨?_, ?_, shape.rank_lt, shape.rank_injective, shape.unvisited,
    shape.freeInside, shape.freeDistinct⟩
  · intro u v edge
    rcases (edge_link u v).mp edge with old | ⟨rfl, rfl⟩
    · exact shape.live old
    · exact ⟨xLive, yLive⟩
  · intro u v
    rw [edge_link]
    simp only [Rep.link, Digraph.insert]
    by_cases target : v = y
    · subst target
      simp only [Function.update_self, List.mem_cons, and_true, shape.mirror]
      exact or_comm
    · simp [target, shape.mirror]

theorem Inv.removeEdge (inv : r.Inv) : (r.removeEdge x y).Inv where
  live := by
    intro u v edge
    exact inv.live ((edge_removeEdge u v).mp edge).1
  mirror := by
    intro u v
    rw [edge_removeEdge]
    simp only [Rep.removeEdge, remove]
    by_cases target : v = y
    · subst target
      simp [inv.mirror]
    · simp [target, inv.mirror]
  rank_lt := inv.rank_lt
  rank_injective := inv.rank_injective
  unvisited := inv.unvisited
  freeInside := inv.freeInside
  freeDistinct := inv.freeDistinct
  increasing := by
    intro u v edge
    exact inv.increasing ((edge_removeEdge u v).mp edge).1

theorem hasEdge_iff : r.hasEdge x y = true ↔ r.Edge x y := by
  simp [hasEdge, Edge]

theorem Shape.insideOuts (shape : r.Shape) :
    ∀ u ∈ r.nodes, ∀ v ∈ r.outs u, v ∈ r.nodes := by
  intro u _ v edge
  exact List.mem_range.mpr (shape.live edge).2.1

theorem Shape.insideIns (shape : r.Shape) :
    ∀ u ∈ r.nodes, ∀ v ∈ r.ins u, v ∈ r.nodes := by
  intro u _ v edge
  exact List.mem_range.mpr (shape.live ((shape.mirror v u).mp edge)).1.1

/-- What a forward search from `n` found. -/
structure Forward (r : Rep) (n upper_bound : Nat)
    (searched : Rep × List Nat × Bool) : Prop where
  sameGraph : SameGraph r searched.1
  rank : searched.1.rank = r.rank
  visited : ∀ u, searched.1.visited u = true ↔ u ∈ searched.2.1
  distinct : searched.2.1.Nodup
  reached : ∀ u ∈ searched.2.1, ReflTransGen r.Edge n u
  below : ∀ u ∈ searched.2.1, u = n ∨ r.rank u < upper_bound
  stopped : searched.2.2 = false →
    ∃ u ∈ searched.2.1, ∃ v, r.Edge u v ∧ r.rank v = upper_bound
  begun : searched.2.2 = true → n ∈ searched.2.1
  closed : searched.2.2 = true → ∀ u ∈ searched.2.1, ∀ v, r.Edge u v →
    r.rank v ≠ upper_bound ∧ (r.rank v < upper_bound → v ∈ searched.2.1)

theorem forwardDFS_spec (shape : r.Shape) {n : Nat} (inside : n < r.size)
    (upper_bound : Nat) :
    Forward r n upper_bound (r.forwardDFS n upper_bound) := by
  have outcome := DepthFirst.run_outcome r.outs
    (fun w => r.rank w == upper_bound)
    (fun w => decide (r.rank w < upper_bound))
    List.nodup_range shape.insideOuts (List.mem_range.mpr inside)
    (shape.unvisited n)
  refine ⟨⟨rfl, rfl, rfl, rfl⟩, rfl, ?_, outcome.distinct, ?_, ?_, ?_, ?_, ?_⟩
  · intro u
    have marks := outcome.marks u
    simp only [shape.unvisited, Bool.false_eq_true, false_or] at marks
    exact marks
  · intro u member
    exact ReflTransGen.mono (fun _ _ step => step.1)
      _ _ (outcome.reached u member)
  · intro u member
    rcases ReflTransGen.cases_tail (outcome.reached u member)
      with rfl | ⟨_, _, step⟩
    · exact .inl rfl
    · exact .inr (by simpa using step.2.1)
  · intro stopped
    obtain ⟨u, member, v, edge, atBound⟩ := outcome.stopped stopped
    exact ⟨u, member, v, edge, by simpa using atBound⟩
  · intro completed
    exact (outcome.closed completed).1
  · intro completed u member v edge
    obtain ⟨goOn, known⟩ := (outcome.closed completed).2 u member v edge
    refine ⟨by simpa using goOn, fun below => ?_⟩
    have visited := known (by simpa using below)
    simp only [shape.unvisited, Bool.false_eq_true, false_or] at visited
    exact visited

/-- What a backward search from `n` found, when `before` was visited. -/
structure Backward (r : Rep) (before : List Nat) (n lower_bound : Nat)
    (searched : Rep × List Nat) : Prop where
  sameGraph : SameGraph r searched.1
  rank : searched.1.rank = r.rank
  visited : ∀ u, searched.1.visited u = true ↔ u ∈ before ∨ u ∈ searched.2
  distinct : searched.2.Nodup
  new : ∀ u ∈ searched.2, u ∉ before
  reached : ∀ u ∈ searched.2, ReflTransGen r.Edge u n
  begun : n ∈ searched.2
  above : ∀ u ∈ searched.2, u = n ∨ lower_bound < r.rank u
  closed : ∀ v ∈ searched.2, ∀ u, r.Edge u v →
    lower_bound < r.rank u → u ∈ before ∨ u ∈ searched.2

theorem backwardDFS_spec {s : Rep} {before : List Nat} (shape : r.Shape)
    (same : SameGraph r s) (rank : s.rank = r.rank)
    (visited : ∀ u, s.visited u = true ↔ u ∈ before) {n : Nat}
    (inside : n < r.size) (new : n ∉ before) (lower_bound : Nat) :
    Backward r before n lower_bound (s.backwardDFS n lower_bound) := by
  have insideIns : ∀ u ∈ s.nodes, ∀ v ∈ s.ins u, v ∈ s.nodes := by
    rw [nodes, same.size, same.ins]
    exact shape.insideIns
  have fresh : s.visited n = false := by
    rw [← Bool.not_eq_true, visited]
    exact new
  have outcome := DepthFirst.run_outcome s.ins (fun _ => false)
    (fun w => decide (lower_bound < s.rank w))
    List.nodup_range insideIns
    (List.mem_range.mpr (same.size.symm ▸ inside)) fresh
  have completed := DepthFirst.run_completed s.ins
    (fun w => decide (lower_bound < s.rank w))
    (DepthFirst.budget s.ins s.nodes) s.visited [] [n]
  have edges : ∀ u v, u ∈ s.ins v ↔ r.Edge u v := by
    intro u v
    rw [same.ins, shape.mirror]
  refine ⟨⟨same.size, same.free_nodes, same.outs, same.ins⟩, rank, ?_,
    outcome.distinct, ?_, ?_, (outcome.closed completed).1, ?_, ?_⟩
  · intro u
    rw [← visited u]
    exact outcome.marks u
  · intro u member unseen
    have unmarked := outcome.new u member
    rw [(visited u).mpr unseen] at unmarked
    exact absurd unmarked (by simp)
  · intro u member
    have path := outcome.reached u member
    have backwards : ReflTransGen (fun a b => r.Edge b a) n u :=
      ReflTransGen.mono (fun a b step => (edges b a).mp step.1) _ _ path
    exact backwards.swap
  · intro u member
    rcases ReflTransGen.cases_tail (outcome.reached u member)
      with rfl | ⟨_, _, step⟩
    · exact .inl rfl
    · exact .inr (by simpa [rank] using step.2.1)
  · intro v member u edge above
    have known :=
      ((outcome.closed completed).2 v member u ((edges u v).mpr edge)).2
        (by simpa [rank] using above)
    rwa [visited] at known

theorem sort_mem {delta : List Nat} (u : Nat) : u ∈ r.sort delta ↔ u ∈ delta :=
  List.mem_insertionSort _

theorem sort_sorted (r : Rep) (delta : List Nat) :
    ((r.sort delta).map r.rank).Pairwise (· ≤ ·) := by
  have mapped : (r.sort delta).map r.rank =
      (delta.map r.rank).insertionSort (· ≤ ·) :=
    List.map_insertionSort _ (· ≤ ·) r.rank delta (fun _ _ _ _ => Iff.rfl)
  rw [mapped]
  exact List.pairwise_insertionSort _ _

theorem Shape.live_of_path (shape : r.Shape) {u v : Nat}
    (path : ReflTransGen r.Edge u v) (uLive : r.Live u) : r.Live v := by
  rcases ReflTransGen.cases_tail path with rfl | ⟨_, _, edge⟩
  · exact uLive
  · exact (shape.live edge).2

theorem Shape.live_of_path_to (shape : r.Shape) {u v : Nat}
    (path : ReflTransGen r.Edge u v) (vLive : r.Live v) : r.Live u := by
  rcases ReflTransGen.cases_head path with rfl | ⟨_, edge, _⟩
  · exact vLive
  · exact (shape.live edge).1

/-- A search that completes has not missed the node at its bound. -/
theorem Forward.unreachable {searched : Rep × List Nat × Bool} {n : Nat}
    (forward : Forward r n (r.rank y) searched)
    (completed : searched.2.2 = true) (different : n ≠ y)
    {edge : Nat → Nat → Prop} (sub : ∀ u v, edge u v → r.Edge u v)
    (increasing : ∀ u v, edge u v → r.rank u < r.rank v) :
    ¬ ReflTransGen edge n y := by
  have climbs : ∀ {u}, ReflTransGen edge u y → u ≠ y → u ∉ searched.2.1 := by
    intro u path
    induction path using ReflTransGen.head_induction_on with
    | refl => intro same; exact absurd rfl same
    | @head u v step rest ih =>
        intro _ member
        obtain ⟨notBound, found⟩ :=
          forward.closed completed u member v (sub u v step)
        have notThere : v ≠ y := by
          rintro rfl
          exact notBound rfl
        have below : r.rank v < r.rank y := by
          rcases ReflTransGen.cases_head rest with same | ⟨w, next, more⟩
          · exact absurd same notThere
          · have up : ∀ {a}, ReflTransGen edge a y → r.rank a ≤ r.rank y := by
              intro a path
              induction path using ReflTransGen.head_induction_on with
              | refl => exact le_refl _
              | head step _ ih => exact (increasing _ _ step).le.trans ih
            exact (increasing _ _ next).trans_le (up more)
        exact ih notThere (found below)
  intro path
  exact climbs path different (forward.begun completed)

/-- A search that meets its bound has found a path. -/
theorem Forward.reachable {searched : Rep × List Nat × Bool} {n : Nat}
    (forward : Forward r n (r.rank y) searched) (shape : r.Shape)
    (inside : y < r.size) (stopped : searched.2.2 = false) :
    TransGen r.Edge n y := by
  obtain ⟨u, member, v, edge, atBound⟩ := forward.stopped stopped
  have same : v = y := shape.rank_injective (shape.live edge).2.1 inside atBound
  subst same
  exact TransGen.tail' (forward.reached u member) edge

section Reorder

variable {f : Rep × List Nat × Bool} {b : Rep × List Nat}

/-- The two searches that an edge against the ranks starts. -/
structure Searches (r : Rep) (x y : Nat) (f : Rep × List Nat × Bool)
    (b : Rep × List Nat) : Prop where
  inv : r.Inv
  xLive : r.Live x
  yLive : r.Live y
  against : r.rank y < r.rank x
  unreachable : ¬ ReflTransGen r.Edge y x
  forward : Forward (r.link x y) y (r.rank x) f
  completed : f.2.2 = true
  backward : Backward (r.link x y) f.2.1 x (r.rank y) b

theorem Searches.shape (searches : Searches r x y f b) : (r.link x y).Shape :=
  searches.inv.toShape.link searches.xLive searches.yLive

theorem Searches.acyclic (searches : Searches r x y f b) :
    Acyclic (r.link x y).Edge := by
  have inserted :=
    (acyclic_insert_iff searches.inv.acyclic).mpr searches.unreachable
  exact inserted.mono (fun u v edge => (edge_link u v).mp edge)

theorem Searches.old (searches : Searches r x y f b) {u v : Nat}
    (edge : (r.link x y).Edge u v) : r.rank u < r.rank v ∨ (u = x ∧ v = y) := by
  rcases (edge_link u v).mp edge with old | new
  · exact .inl (searches.inv.increasing old)
  · exact .inr new

theorem Searches.rank (searches : Searches r x y f b) : b.1.rank = r.rank :=
  searches.backward.rank

theorem Searches.noReturn (searches : Searches r x y f b) {u v : Nat}
    (uForward : u ∈ f.2.1) (vBackward : v ∈ b.2) : ¬ (r.link x y).Edge u v := by
  intro edge
  have out : ReflTransGen (r.link x y).Edge y u :=
    searches.forward.reached u uForward
  have back : ReflTransGen (r.link x y).Edge v x :=
    searches.backward.reached v vBackward
  have new : (r.link x y).Edge x y := (edge_link x y).mpr (.inr ⟨rfl, rfl⟩)
  have cycle : TransGen (r.link x y).Edge x x :=
    TransGen.head' new ((out.tail edge).trans back)
  exact searches.acyclic x cycle

theorem Searches.within (searches : Searches r x y f b) :
    ∀ u ∈ b.1.sort b.2 ++ b.1.sort f.2.1,
      u < r.size ∧ r.rank y ≤ r.rank u ∧ r.rank u ≤ r.rank x := by
  intro u member
  rw [List.mem_append, sort_mem, sort_mem] at member
  have against := searches.against
  rcases member with inBackward | inForward
  · have path := searches.backward.reached u inBackward
    have uLive := searches.shape.live_of_path_to path searches.xLive
    have bounded : r.rank y ≤ r.rank u := by
      rcases searches.backward.above u inBackward with rfl | above
      · exact against.le
      · exact le_of_lt above
    refine ⟨uLive.1, bounded, ?_⟩
    -- only the new edge could leave the path to `x` against the ranks
    have climbs : ∀ {a}, ReflTransGen (r.link x y).Edge a x →
        r.rank a ≤ r.rank x := by
      intro a path
      induction path using ReflTransGen.head_induction_on with
      | refl => exact le_refl _
      | head step rest ih =>
          rcases searches.old step with up | ⟨rfl, _⟩
          · exact up.le.trans ih
          · exact le_refl _
    exact climbs path
  · have path := searches.forward.reached u inForward
    have uLive := searches.shape.live_of_path path searches.yLive
    have bounded : r.rank u ≤ r.rank x := by
      rcases searches.forward.below u inForward with rfl | below
      · exact against.le
      · exact le_of_lt below
    refine ⟨uLive.1, ?_, bounded⟩
    have climbs : ∀ {a}, ReflTransGen (r.link x y).Edge y a →
        r.rank y ≤ r.rank a := by
      intro a path
      induction path with
      | refl => exact le_refl _
      | tail _ step ih =>
          rcases searches.old step with up | ⟨_, rfl⟩
          · exact ih.trans up.le
          · exact le_refl _
    exact climbs path

theorem Searches.resorts (searches : Searches r x y f b) :
    Resorts (b.1.sort b.2 ++ b.1.sort f.2.1)
      (((b.1.sort b.2).map b.1.rank).merge ((b.1.sort f.2.1).map b.1.rank))
      b.1.rank where
  distinct := by
    apply List.Nodup.append
    · exact (List.perm_insertionSort _ _).nodup_iff.mpr
        searches.backward.distinct
    · exact (List.perm_insertionSort _ _).nodup_iff.mpr
        searches.forward.distinct
    · intro u inBackward inForward
      rw [sort_mem] at inBackward inForward
      exact searches.backward.new u inBackward inForward
  injective := by
    intro u uIn v vIn same
    rw [searches.rank] at same
    exact searches.inv.rank_injective (searches.within u uIn).1
      (searches.within v vIn).1 same
  permutation := by
    rw [List.map_append]
    exact List.merge_perm_append _
  sorted := (sort_sorted _ _).merge (sort_sorted _ _)

theorem Searches.reorder_increasing (searches : Searches r x y f b) {u v : Nat}
    (edge : (r.link x y).Edge u v) :
    (b.1.reorder b.2 f.2.1).rank u < (b.1.reorder b.2 f.2.1).rank v := by
  have within : ∀ u ∈ b.1.sort b.2 ++ b.1.sort f.2.1,
      b.1.rank y ≤ b.1.rank u ∧ b.1.rank u ≤ b.1.rank x := by
    intro u member
    rw [searches.rank]
    exact (searches.within u member).2
  apply searches.resorts.increasing (r.link x y).Edge (sort_sorted _ _)
    (sort_sorted _ _) within
  · intro source target member step
    rw [sort_mem] at member ⊢
    by_cases above : r.rank y < r.rank source
    · rcases searches.backward.closed target member source step above with
        inForward | inBackward
      · exact absurd step (searches.noReturn inForward member)
      · exact .inl inBackward
    · right
      rw [searches.rank]
      apply lt_of_le_of_ne (Nat.le_of_not_lt above)
      intro same
      have sourceIn := (searches.shape.live step).1.1
      have isY := searches.inv.rank_injective sourceIn searches.yLive.1 same
      subst isY
      exact searches.noReturn (searches.forward.begun searches.completed)
        member step
  · intro source member target step
    rw [sort_mem] at member ⊢
    obtain ⟨notBound, found⟩ :=
      searches.forward.closed searches.completed source member target step
    by_cases below : r.rank target < r.rank x
    · exact .inl (found below)
    · right
      rw [searches.rank]
      exact lt_of_le_of_ne (Nat.le_of_not_lt below) (Ne.symm notBound)
  · intro source target step
    rw [searches.rank, sort_mem, sort_mem]
    rcases searches.old step with up | ⟨rfl, rfl⟩
    · exact .inl up
    · exact .inr ⟨searches.backward.begun,
        searches.forward.begun searches.completed⟩
  · exact edge

theorem Searches.reorder_inv (searches : Searches r x y f b) :
    (b.1.reorder b.2 f.2.1).Inv := by
  have same := searches.backward.sameGraph
  have resorts := searches.resorts
  have shape := searches.shape
  have size : (b.1.reorder b.2 f.2.1).size = r.size := same.size
  have edges : ∀ u v, (b.1.reorder b.2 f.2.1).Edge u v ↔
      (r.link x y).Edge u v :=
    same.edge
  have old : ∀ {u}, u ∉ b.1.sort b.2 ++ b.1.sort f.2.1 →
      (b.1.reorder b.2 f.2.1).rank u = r.rank u := by
    intro u absent
    rw [← searches.rank]
    exact reassign_of_notMem absent
  have moved : ∀ {u}, u ∈ b.1.sort b.2 ++ b.1.sort f.2.1 →
      ∃ w ∈ b.1.sort b.2 ++ b.1.sort f.2.1,
        r.rank w = (b.1.reorder b.2 f.2.1).rank u := by
    intro u member
    rw [← searches.rank]
    exact resorts.mem member
  constructor
  · refine ⟨?_, ?_, ?_, ?_, ?_, ?_, ?_⟩
    · intro u v edge
      exact (shape.live ((edges u v).mp edge)).imp (same.live u).mpr
        (same.live v).mpr
    · intro u v
      rw [edges, ← shape.mirror, ← same.ins]
      rfl
    · intro u inside
      rw [size] at inside ⊢
      by_cases member : u ∈ b.1.sort b.2 ++ b.1.sort f.2.1
      · obtain ⟨w, wIn, wRank⟩ := moved member
        rw [← wRank]
        exact searches.inv.rank_lt (searches.within w wIn).1
      · rw [old member]
        exact searches.inv.rank_lt inside
    · intro u v uIn vIn sameRank
      rw [size] at uIn vIn
      -- a moved rank is the old rank of a moved node, so it meets no other rank
      have apart : ∀ {a c}, a ∈ b.1.sort b.2 ++ b.1.sort f.2.1 →
          c ∉ b.1.sort b.2 ++ b.1.sort f.2.1 → c < r.size →
          (b.1.reorder b.2 f.2.1).rank a ≠ (b.1.reorder b.2 f.2.1).rank c := by
        intro a c aMember cAbsent cIn sameRank
        obtain ⟨w, wIn, wRank⟩ := moved aMember
        rw [← wRank, old cAbsent] at sameRank
        have equal := searches.inv.rank_injective (searches.within w wIn).1
          cIn sameRank
        exact cAbsent (equal ▸ wIn)
      by_cases uMember : u ∈ b.1.sort b.2 ++ b.1.sort f.2.1
      · by_cases vMember : v ∈ b.1.sort b.2 ++ b.1.sort f.2.1
        · exact resorts.injective_after uMember vMember sameRank
        · exact absurd sameRank (apart uMember vMember vIn)
      · by_cases vMember : v ∈ b.1.sort b.2 ++ b.1.sort f.2.1
        · exact absurd sameRank.symm (apart vMember uMember uIn)
        · rw [old uMember, old vMember] at sameRank
          exact searches.inv.rank_injective uIn vIn sameRank
    · intro u
      have marks := searches.backward.visited u
      simp only [reorder, clearVisitedBits, Bool.and_eq_false_iff,
        Bool.not_eq_false', List.contains_eq_mem, List.mem_append, sort_mem,
        decide_eq_true_eq]
      by_cases seen : b.1.visited u = true
      · exact .inr ((marks.mp seen).symm)
      · exact .inl (by simpa using seen)
    · intro u member
      have member : u ∈ b.1.free_nodes := member
      rw [same.free_nodes] at member
      rw [size]
      exact searches.inv.freeInside u member
    · have free : (b.1.reorder b.2 f.2.1).free_nodes = r.free_nodes :=
        same.free_nodes
      rw [free]
      exact searches.inv.freeDistinct
  · intro u v edge
    exact searches.reorder_increasing ((edges u v).mp edge)

end Reorder

/-- What `insertEdge` promises. -/
structure Inserted (r : Rep) (x y : Nat) (outcome : Rep × Bool) : Prop where
  inv : outcome.1.Inv
  live : ∀ u, outcome.1.Live u ↔ r.Live u
  accepted : outcome.2 = true ↔ ¬ ReflTransGen r.Edge y x
  edge : ∀ u v, outcome.1.Edge u v ↔
    r.Edge u v ∨ (outcome.2 = true ∧ u = x ∧ v = y)

/-- The new edge agrees with the ranks. -/
theorem insertEdge_along (inv : r.Inv) (xLive : r.Live x) (yLive : r.Live y)
    (below : r.rank x < r.rank y) : Inserted r x y (r.link x y, true) where
  inv := {
    toShape := inv.toShape.link xLive yLive
    increasing := by
      intro u v edge
      rcases (edge_link u v).mp edge with old | ⟨rfl, rfl⟩
      · exact inv.increasing old
      · exact below }
  live := fun _ => Iff.rfl
  accepted := by
    refine ⟨fun _ path => ?_, fun _ => rfl⟩
    have climbs : ∀ {a}, ReflTransGen r.Edge y a → r.rank y ≤ r.rank a := by
      intro a path
      induction path with
      | refl => exact le_refl _
      | tail _ step ih => exact ih.trans (inv.increasing step).le
    exact absurd below (not_lt.mpr (climbs path))
  edge := by
    intro u v
    rw [edge_link, Digraph.insert]
    simp

/-- Undoing the insertion after a search that found a cycle. -/
theorem insertEdge_undo {f : Rep × List Nat × Bool} (inv : r.Inv)
    (new : ¬ r.Edge x y) (forward : Forward (r.link x y) y (r.rank x) f)
    (path : ReflTransGen r.Edge y x) :
    Inserted r x y ((f.1.removeEdge x y).clearVisitedBits f.2.1, false) := by
  have same := forward.sameGraph
  have edges : ∀ u v, ((f.1.removeEdge x y).clearVisitedBits f.2.1).Edge u v ↔
      r.Edge u v := by
    intro u v
    have removed : ((f.1.removeEdge x y).clearVisitedBits f.2.1).Edge u v ↔
        remove f.1.Edge x y u v := edge_removeEdge u v
    rw [removed, remove, same.edge, edge_link, Digraph.insert]
    constructor
    · rintro ⟨old | equal, other⟩
      · exact old
      · exact absurd equal other
    · intro old
      refine ⟨.inl old, ?_⟩
      rintro ⟨rfl, rfl⟩
      exact new old
  have live : ∀ u, ((f.1.removeEdge x y).clearVisitedBits f.2.1).Live u ↔
      r.Live u :=
    same.live
  have size : f.1.size = r.size := same.size
  have free : f.1.free_nodes = r.free_nodes := same.free_nodes
  have rank : f.1.rank = r.rank := forward.rank
  refine ⟨⟨⟨?_, ?_, ?_, ?_, ?_, ?_, ?_⟩, ?_⟩, live, by simp [path], ?_⟩
  · intro u v edge
    exact (inv.live ((edges u v).mp edge)).imp (live u).mpr (live v).mpr
  · intro u v
    rw [edges]
    simp only [clearVisitedBits, removeEdge, same.ins, link]
    by_cases target : v = y
    · subst target
      simp only [Function.update_self, List.filter_cons, bne_self_eq_false,
        Bool.false_eq_true, if_false, List.mem_filter, inv.mirror, bne_iff_ne]
      constructor
      · exact fun both => both.1
      · intro edge
        refine ⟨edge, ?_⟩
        rintro rfl
        exact new edge
    · simp [target, inv.mirror]
  · intro u inside
    have inside : u < f.1.size := inside
    change f.1.rank u < f.1.size
    rw [rank]
    rw [size] at inside ⊢
    exact inv.rank_lt inside
  · intro u v uIn vIn sameRank
    have uIn : u < f.1.size := uIn
    have vIn : v < f.1.size := vIn
    have sameRank : f.1.rank u = f.1.rank v := sameRank
    rw [rank] at sameRank
    rw [size] at uIn vIn
    exact inv.rank_injective uIn vIn sameRank
  · intro u
    have marks := forward.visited u
    simp only [clearVisitedBits, removeEdge, Bool.and_eq_false_iff,
      Bool.not_eq_false', List.contains_eq_mem, decide_eq_true_eq]
    by_cases seen : f.1.visited u = true
    · exact .inr (marks.mp seen)
    · exact .inl (by simpa using seen)
  · intro u member
    have member : u ∈ f.1.free_nodes := member
    rw [free] at member
    change u < f.1.size
    rw [size]
    exact inv.freeInside u member
  · change f.1.free_nodes.Nodup
    rw [free]
    exact inv.freeDistinct
  · intro u v edge
    change f.1.rank u < f.1.rank v
    rw [rank]
    exact inv.increasing ((edges u v).mp edge)
  · intro u v
    rw [edges]
    simp

theorem insertEdge_reordered {f : Rep × List Nat × Bool} {b : Rep × List Nat}
    (searches : Searches r x y f b) :
    Inserted r x y (b.1.reorder b.2 f.2.1, true) where
  inv := searches.reorder_inv
  live := fun u => searches.backward.sameGraph.live u
  accepted := ⟨fun _ => searches.unreachable, fun _ => rfl⟩
  edge := by
    intro u v
    have same : (b.1.reorder b.2 f.2.1).Edge u v ↔ (r.link x y).Edge u v :=
      searches.backward.sameGraph.edge u v
    rw [same, edge_link, Digraph.insert]
    simp

/-- An edge is inserted exactly when its target does not reach its source;
otherwise the edges stay as they are. -/
theorem insertEdge_spec (inv : r.Inv) (xLive : r.Live x) (yLive : r.Live y) :
    Inserted r x y (r.insertEdge x y) := by
  unfold insertEdge
  by_cases loop : x = y
  · subst loop
    simp only [if_true]
    exact ⟨inv, fun _ => Iff.rfl, by simp [ReflTransGen.refl], by simp⟩
  · rw [if_neg loop]
    by_cases there : r.hasEdge x y = true
    · rw [if_pos there]
      have edge := hasEdge_iff.mp there
      refine ⟨inv, fun _ => Iff.rfl, ?_, ?_⟩
      · refine ⟨fun _ path => ?_, fun _ => rfl⟩
        exact inv.acyclic x (TransGen.head' edge path)
      · intro u v
        constructor
        · exact .inl
        · rintro (old | ⟨_, rfl, rfl⟩)
          · exact old
          · exact edge
    · rw [if_neg there]
      have new : ¬ r.Edge x y := fun edge => there (hasEdge_iff.mpr edge)
      by_cases along : r.rank x ≤ r.rank y
      · rw [if_pos along]
        apply insertEdge_along inv xLive yLive
        exact lt_of_le_of_ne along
          (fun same => loop (inv.rank_injective xLive.1 yLive.1 same))
      · rw [if_neg along]
        have against : r.rank y < r.rank x := Nat.lt_of_not_le along
        have shape := inv.toShape.link xLive yLive
        have forward : Forward (r.link x y) y (r.rank x)
            ((r.link x y).forwardDFS y (r.rank x)) :=
          forwardDFS_spec shape yLive.1 (r.rank x)
        generalize (r.link x y).forwardDFS y (r.rank x) = f at forward
        obtain ⟨searched, deltaf, completed⟩ := f
        cases completed with
        | false =>
            simp only
            apply insertEdge_undo inv new forward
            have path : TransGen (r.link x y).Edge y x :=
              forward.reachable shape xLive.1 rfl
            have path := TransGen.mono (fun u v => (edge_link u v).mp) _ _ path
            rcases transGen_insert path with direct | ⟨before, _⟩
            · exact direct.to_reflTransGen
            · exact before
        | true =>
            simp only
            have unreachable : ¬ ReflTransGen r.Edge y x :=
              forward.unreachable rfl (Ne.symm loop)
                (fun u v edge => (edge_link u v).mpr (.inl edge))
                (fun u v edge => inv.increasing edge)
            have unseen : x ∉ deltaf := by
              intro member
              rcases forward.below x member with same | below
              · exact loop same
              · exact absurd below (lt_irrefl _)
            have backward :=
              backwardDFS_spec shape forward.sameGraph forward.rank
                forward.visited xLive.1 unseen (r.rank y)
            exact insertEdge_reordered
              ⟨inv, xLive, yLive, against, unreachable, forward, rfl, backward⟩

/-- What `isReachableNonConst` promises. -/
structure Answered (r : Rep) (x y : Nat) (outcome : Rep × Bool) : Prop where
  inv : outcome.1.Inv
  sameGraph : SameGraph r outcome.1
  answer : outcome.2 = true ↔ ReflTransGen r.Edge x y

theorem isReachableNonConst_spec (inv : r.Inv) (xLive : r.Live x)
    (yLive : r.Live y) : Answered r x y (r.isReachableNonConst x y) := by
  unfold isReachableNonConst
  by_cases loop : x = y
  · subst loop
    simp only [if_true]
    exact ⟨inv, ⟨rfl, rfl, rfl, rfl⟩, by simp [ReflTransGen.refl]⟩
  · rw [if_neg loop]
    by_cases above : r.rank y ≤ r.rank x
    · rw [if_pos above]
      refine ⟨inv, ⟨rfl, rfl, rfl, rfl⟩, by simp, ?_⟩
      intro path
      rcases ReflTransGen.cases_head path with same | ⟨next, step, rest⟩
      · exact absurd same loop
      · have up : ∀ {a}, ReflTransGen r.Edge a y → r.rank a ≤ r.rank y := by
          intro a path
          induction path using ReflTransGen.head_induction_on with
          | refl => exact le_refl _
          | head step _ ih => exact (inv.increasing step).le.trans ih
        have climbs := (inv.increasing step).trans_le (up rest)
        exact absurd above (not_le.mpr climbs)
    · rw [if_neg above]
      have forward := forwardDFS_spec inv.toShape xLive.1 (r.rank y)
      generalize r.forwardDFS x (r.rank y) = f at forward
      obtain ⟨searched, deltaf, completed⟩ := f
      have same := forward.sameGraph
      have cleared : SameGraph r (searched.clearVisitedBits deltaf) :=
        ⟨same.size, same.free_nodes, same.outs, same.ins⟩
      have rank : (searched.clearVisitedBits deltaf).rank = r.rank :=
        forward.rank
      refine ⟨⟨⟨?_, ?_, ?_, ?_, ?_, ?_, ?_⟩, ?_⟩, cleared, ?_⟩
      · intro u v edge
        exact (inv.live ((cleared.edge u v).mp edge)).imp (cleared.live u).mpr
          (cleared.live v).mpr
      · intro u v
        rw [cleared.edge, cleared.ins, inv.mirror]
      · intro u inside
        rw [rank]
        rw [cleared.size] at inside ⊢
        exact inv.rank_lt inside
      · intro u v uIn vIn sameRank
        rw [rank] at sameRank
        rw [cleared.size] at uIn vIn
        exact inv.rank_injective uIn vIn sameRank
      · intro u
        have marks := forward.visited u
        simp only [clearVisitedBits, Bool.and_eq_false_iff,
          Bool.not_eq_false', List.contains_eq_mem, decide_eq_true_eq]
        by_cases seen : searched.visited u = true
        · exact .inr (marks.mp seen)
        · exact .inl (by simpa using seen)
      · intro u member
        rw [cleared.free_nodes] at member
        rw [cleared.size]
        exact inv.freeInside u member
      · rw [cleared.free_nodes]
        exact inv.freeDistinct
      · intro u v edge
        rw [rank]
        exact inv.increasing ((cleared.edge u v).mp edge)
      · cases completed with
        | false =>
            simp only [Bool.not_false, true_iff]
            exact (forward.reachable inv.toShape yLive.1 rfl).to_reflTransGen
        | true =>
            simp only [Bool.not_true, Bool.false_eq_true, false_iff]
            exact forward.unreachable rfl loop (fun _ _ edge => edge)
              (fun _ _ edge => inv.increasing edge)

/-- Edges of one acyclic relation are all accepted. -/
theorem insertEdges_spec {total : Nat → Nat → Prop} (acyclic : Acyclic total)
    (edges : List (Nat × Nat)) (inv : r.Inv)
    (old : ∀ u v, r.Edge u v → total u v)
    (new : ∀ edge ∈ edges, total edge.1 edge.2 ∧ r.Live edge.1 ∧
      r.Live edge.2) :
    (r.insertEdges edges).Inv ∧
      (∀ u, (r.insertEdges edges).Live u ↔ r.Live u) ∧
      ∀ u v, (r.insertEdges edges).Edge u v ↔ r.Edge u v ∨ (u, v) ∈ edges := by
  induction edges generalizing r with
  | nil =>
      refine ⟨inv, fun _ => Iff.rfl, fun u v => ?_⟩
      simp [insertEdges]
  | cons edge edges ih =>
      obtain ⟨x, y⟩ := edge
      obtain ⟨inTotal, xLive, yLive⟩ := new (x, y) (by simp)
      have inserted := insertEdge_spec inv xLive yLive
      have accepted : (r.insertEdge x y).2 = true := by
        rw [inserted.accepted]
        intro path
        exact acyclic x
          (TransGen.head' inTotal (ReflTransGen.mono old _ _ path))
      have edge : ∀ u v, (r.insertEdge x y).1.Edge u v ↔
          r.Edge u v ∨ (u = x ∧ v = y) := by
        intro u v
        rw [inserted.edge, accepted]
        simp
      obtain ⟨restInv, restLive, restEdge⟩ := ih inserted.inv
        (by
          intro u v step
          rcases (edge u v).mp step with step | ⟨rfl, rfl⟩
          · exact old u v step
          · exact inTotal)
        (by
          intro pair member
          obtain ⟨pairTotal, firstLive, secondLive⟩ :=
        new pair (by simp [member])
          exact ⟨pairTotal, (inserted.live _).mpr firstLive,
            (inserted.live _).mpr secondLive⟩)
      refine ⟨restInv, fun u => (restLive u).trans (inserted.live u),
        fun u v => ?_⟩
      have unfolded := restEdge u v
      rw [edge] at unfolded
      rw [insertEdges, unfolded, List.mem_cons, Prod.mk.injEq]
      exact or_assoc

theorem edge_detach {b : Nat} (u v : Nat) :
    (r.detach b).Edge u v ↔ r.Edge u v ∧ u ≠ b ∧ v ≠ b := by
  simp only [Edge, detach]
  by_cases source : u = b
  · simp [source]
  · simp [source]

theorem detach_live {b : Nat} (u : Nat) :
    (r.detach b).Live u ↔ r.Live u ∧ u ≠ b := by
  simp only [Live, detach, List.mem_cons, not_or]
  constructor
  · exact fun ⟨inside, other, unused⟩ => ⟨⟨inside, unused⟩, other⟩
  · exact fun ⟨⟨inside, unused⟩, other⟩ => ⟨inside, other, unused⟩

theorem Inv.detach {b : Nat} (inv : r.Inv) (bLive : r.Live b) :
    (r.detach b).Inv where
  live := by
    intro u v edge
    obtain ⟨old, source, target⟩ := (edge_detach u v).mp edge
    rw [detach_live, detach_live]
    exact ⟨⟨(inv.live old).1, source⟩, (inv.live old).2, target⟩
  mirror := by
    intro u v
    rw [edge_detach]
    simp only [Rep.detach]
    by_cases target : v = b
    · simp [target]
    · simp [target, inv.mirror]
  rank_lt := inv.rank_lt
  rank_injective := inv.rank_injective
  unvisited := inv.unvisited
  freeInside := by
    intro u member
    rcases List.mem_cons.mp member with rfl | old
    · exact bLive.1
    · exact inv.freeInside u old
  freeDistinct := List.nodup_cons.mpr ⟨bLive.2, inv.freeDistinct⟩
  increasing := by
    intro u v edge
    exact inv.increasing ((edge_detach u v).mp edge).1

/-- What `contractEdge` promises. -/
structure Contracted (r : Rep) (a b : Nat) (outcome : Rep × Bool) : Prop where
  inv : outcome.1.Inv
  accepted : outcome.2 = true ↔ ¬ ReflTransGen (remove r.Edge a b) a b
  live : ∀ u, outcome.1.Live u ↔ r.Live u ∧ (outcome.2 = true → u ≠ b)
  edge : ∀ u v, outcome.1.Edge u v ↔
    if outcome.2 then contract r.Edge a b u v else r.Edge u v

/-- Moving the edges of `b` over to `a` contracts the edge between them. -/
theorem contract_iff {edge : Nat → Nat → Prop} {a b : Nat}
    (acyclic : Acyclic edge) (there : edge a b) (u v : Nat) :
    contract edge a b u v ↔
      (remove edge a b u v ∧ u ≠ b ∧ v ≠ b) ∨ (u = a ∧ remove edge a b b v) ∨
        (v = a ∧ remove edge a b u b) := by
  have different : a ≠ b := by
    rintro rfl
    exact acyclic.irrefl a there
  constructor
  · rintro ⟨source, target, step, rfl, rfl⟩
    by_cases fromDropped : source = b
    · subst fromDropped
      have other : target ≠ source := by
        rintro rfl
        exact acyclic.irrefl _ step.1
      rw [merge_dropped, merge_of_ne other]
      exact .inr (.inl ⟨rfl, step⟩)
    · rw [merge_of_ne fromDropped]
      by_cases toDropped : target = b
      · subst toDropped
        rw [merge_dropped]
        exact .inr (.inr ⟨rfl, step⟩)
      · rw [merge_of_ne toDropped]
        exact .inl ⟨step, fromDropped, toDropped⟩
  · rintro (⟨step, source, target⟩ | ⟨rfl, step⟩ | ⟨rfl, step⟩)
    · exact ⟨u, v, step, merge_of_ne source, merge_of_ne target⟩
    · refine ⟨b, v, step, merge_dropped _ _, merge_of_ne ?_⟩
      rintro rfl
      exact acyclic.irrefl _ step.1
    · refine ⟨u, b, step, merge_of_ne ?_, merge_dropped _ _⟩
      rintro rfl
      exact acyclic.irrefl _ step.1

/-- The graph without the edge between `a` and `b`. -/
structure Removed (r : Rep) (a b : Nat) (searched : Rep) : Prop where
  inv : searched.Inv
  edge : ∀ u v, searched.Edge u v ↔ remove r.Edge a b u v
  live : ∀ u, searched.Live u ↔ r.Live u

section Contract

variable {a b : Nat} {searched : Rep}

theorem isReachableNonConst_removed (inv : r.Inv) (there : r.Edge a b) :
    Removed r a b ((r.removeEdge a b).isReachableNonConst a b).1 ∧
      (((r.removeEdge a b).isReachableNonConst a b).2 = true ↔
        ReflTransGen (remove r.Edge a b) a b) := by
  obtain ⟨aLive, bLive⟩ := inv.live there
  have removedEdge : (r.removeEdge a b).Edge = remove r.Edge a b := by
    ext u v
    exact edge_removeEdge u v
  have answered : Answered (r.removeEdge a b) a b
      ((r.removeEdge a b).isReachableNonConst a b) :=
    isReachableNonConst_spec inv.removeEdge aLive bLive
  have answer := answered.answer
  rw [removedEdge] at answer
  refine ⟨⟨answered.inv, ?_, answered.sameGraph.live⟩, answer⟩
  intro u v
  rw [answered.sameGraph.edge, removedEdge]

/-- An edge on a cycle is put back. -/
theorem Removed.refused (removed : Removed r a b searched) (inv : r.Inv)
    (there : r.Edge a b) (path : ReflTransGen (remove r.Edge a b) a b) :
    Contracted r a b ((searched.insertEdge a b).1, false) := by
  obtain ⟨aLive, bLive⟩ := inv.live there
  have inserted := insertEdge_spec removed.inv ((removed.live a).mpr aLive)
    ((removed.live b).mpr bLive)
  have accepted : (searched.insertEdge a b).2 = true := by
    rw [inserted.accepted]
    intro back
    have old : ReflTransGen r.Edge b a :=
      ReflTransGen.mono
        (fun u v step => ((removed.edge u v).mp step).1) _ _ back
    exact inv.acyclic a (TransGen.head' there old)
  refine ⟨inserted.inv, by simpa using path, ?_, ?_⟩
  · intro u
    simp only [Bool.false_eq_true, false_implies, and_true]
    rw [inserted.live, removed.live]
  · intro u v
    simp only [Bool.false_eq_true, if_false]
    rw [inserted.edge, removed.edge, accepted, remove]
    constructor
    · rintro (⟨old, _⟩ | ⟨_, rfl, rfl⟩)
      · exact old
      · exact there
    · intro old
      by_cases same : u = a ∧ v = b
      · exact .inr ⟨rfl, same⟩
      · exact .inl ⟨old, same⟩

/-- Any other edge is contracted: `a` takes over the edges of `b`. -/
theorem Removed.accepted (removed : Removed r a b searched) (inv : r.Inv)
    (there : r.Edge a b) (only : ¬ ReflTransGen (remove r.Edge a b) a b) :
    Contracted r a b (((searched.detach b).insertEdges
      ((searched.outs b).map fun y => (a, y))).insertEdges
        ((searched.ins b).map fun y => (y, a)), true) := by
  obtain ⟨aLive, bLive⟩ := inv.live there
  have acyclic := acyclic_contract inv.acyclic there only
  have detached := removed.inv.detach ((removed.live b).mpr bLive)
  have detachedEdge : ∀ u v, (searched.detach b).Edge u v ↔
      remove r.Edge a b u v ∧ u ≠ b ∧ v ≠ b := by
    intro u v
    rw [edge_detach, removed.edge]
  have detachedLive : ∀ u, (searched.detach b).Live u ↔ r.Live u ∧ u ≠ b := by
    intro u
    rw [detach_live, removed.live]
  have different : a ≠ b := by
    rintro rfl
    exact inv.acyclic.irrefl a there
  have aStays := (detachedLive a).mpr ⟨aLive, different⟩
  have outs : ∀ v, v ∈ searched.outs b ↔ remove r.Edge a b b v := removed.edge b
  have ins : ∀ u, u ∈ searched.ins b ↔ remove r.Edge a b u b := by
    intro u
    rw [removed.inv.mirror, removed.edge]
  have iff := contract_iff inv.acyclic there
  obtain ⟨movedInv, movedLive, movedEdge⟩ := insertEdges_spec acyclic
    ((searched.outs b).map (fun y => (a, y))) detached
    (by
      intro u v step
      exact (iff u v).mpr (.inl ((detachedEdge u v).mp step)))
    (by
      intro edge member
      obtain ⟨v, vOut, rfl⟩ := List.mem_map.mp member
      have step := (outs v).mp vOut
      have other : v ≠ b := by
        rintro rfl
        exact inv.acyclic.irrefl _ step.1
      exact ⟨(iff a v).mpr (.inr (.inl ⟨rfl, step⟩)), aStays,
        (detachedLive v).mpr ⟨(inv.live step.1).2, other⟩⟩)
  obtain ⟨finalInv, finalLive, finalEdge⟩ := insertEdges_spec acyclic
    ((searched.ins b).map (fun y => (y, a))) movedInv
    (by
      intro u v step
      rcases (movedEdge u v).mp step with old | moved
      · exact (iff u v).mpr (.inl ((detachedEdge u v).mp old))
      · obtain ⟨w, wOut, same⟩ := List.mem_map.mp moved
        obtain ⟨rfl, rfl⟩ := Prod.mk.inj same
        exact (iff a w).mpr (.inr (.inl ⟨rfl, (outs w).mp wOut⟩)))
    (by
      intro edge member
      obtain ⟨u, uIn, rfl⟩ := List.mem_map.mp member
      have step := (ins u).mp uIn
      have other : u ≠ b := by
        rintro rfl
        exact inv.acyclic.irrefl _ step.1
      exact ⟨(iff u a).mpr (.inr (.inr ⟨rfl, step⟩)),
        (movedLive u).mpr ((detachedLive u).mpr ⟨(inv.live step.1).1, other⟩),
        (movedLive a).mpr aStays⟩)
  refine ⟨finalInv, by simp [only], ?_, ?_⟩
  · intro u
    simp only [true_implies]
    rw [finalLive, movedLive, detachedLive]
  · intro u v
    simp only [if_true]
    rw [finalEdge, movedEdge, detachedEdge, iff]
    simp only [List.mem_map, Prod.mk.injEq, or_assoc]
    constructor
    · rintro (old | ⟨w, wOut, rfl, rfl⟩ | ⟨w, wIn, rfl, rfl⟩)
      · exact .inl old
      · exact .inr (.inl ⟨rfl, (outs w).mp wOut⟩)
      · exact .inr (.inr ⟨rfl, (ins w).mp wIn⟩)
    · rintro (old | ⟨rfl, step⟩ | ⟨rfl, step⟩)
      · exact .inl old
      · exact .inr (.inl ⟨v, (outs v).mpr step, rfl, rfl⟩)
      · exact .inr (.inr ⟨u, (ins u).mpr step, rfl, rfl⟩)

/-- An edge is contracted exactly when it is the only path between its ends;
otherwise the graph stays as it is. -/
theorem contractEdge_spec (inv : r.Inv) (there : r.Edge a b) :
    Contracted r a b (r.contractEdge a b) := by
  unfold contractEdge
  obtain ⟨removed, answer⟩ := isReachableNonConst_removed inv there
  generalize (r.removeEdge a b).isReachableNonConst a b =
      outcome at removed answer
  obtain ⟨searched, reachable⟩ := outcome
  cases reachable with
  | true => exact removed.refused inv there (answer.mp rfl)
  | false =>
      have only : ¬ ReflTransGen (remove r.Edge a b) a b := by
        rw [← answer]
        simp
      exact removed.accepted inv there only

end Contract

end Rep

end NGraphBridge.GraphCycles
