import NGraphBridge.Lib.DepthFirst
import NGraphBridge.Lib.RankShift
import Mathlib.Data.List.Sort

/-!
# GraphCycles

Incremental cycle detection with a rank for every node, after Pearce and
Kelly.  A rank below another is a promise about the order; an edge against the
ranks starts two searches and a reassignment of the ranks they cover.
-/

namespace NGraphBridge.GraphCycles

/-- `GraphCycles::Rep`, field by field; `rank x` is `nodes_[x]->rank`. -/
structure Rep where
  size : Nat
  rank : Nat → Nat
  visited : Nat → Bool
  ins : Nat → List Nat
  outs : Nat → List Nat
  free_nodes : List Nat

def Rep.empty : Rep where
  size := 0
  rank := fun _ => 0
  visited := fun _ => false
  ins := fun _ => []
  outs := fun _ => []
  free_nodes := []

namespace Rep

def newNode (r : Rep) : Rep × Nat :=
  match r.free_nodes with
  | [] =>
      ({ r with
          size := r.size + 1
          rank := Function.update r.rank r.size r.size
          visited := Function.update r.visited r.size false
          ins := Function.update r.ins r.size []
          outs := Function.update r.outs r.size [] }, r.size)
  | node :: free_nodes => ({ r with free_nodes := free_nodes }, node)

def hasEdge (r : Rep) (x y : Nat) : Bool := (r.outs x).contains y

/-- Put `y` into the successors of `x` and `x` into the predecessors of `y`. -/
def link (r : Rep) (x y : Nat) : Rep :=
  { r with
    outs := Function.update r.outs x (y :: r.outs x)
    ins := Function.update r.ins y (x :: r.ins y) }

def removeEdge (r : Rep) (x y : Nat) : Rep :=
  { r with
    outs := Function.update r.outs x ((r.outs x).filter (· != y))
    ins := Function.update r.ins y ((r.ins y).filter (· != x)) }

def nodes (r : Rep) : List Nat := List.range r.size

/-- Visit what `n` reaches below `upper_bound`; it does not complete when a
successor has rank `upper_bound`, which means a cycle. -/
def forwardDFS (r : Rep) (n upper_bound : Nat) : Rep × List Nat × Bool :=
  let result := DepthFirst.run r.outs
    (fun w => r.rank w == upper_bound)
    (fun w => decide (r.rank w < upper_bound))
    (DepthFirst.budget r.outs r.nodes) r.visited [] [n]
  ({ r with visited := result.visited }, result.delta, result.completed)

/-- Visit what reaches `n` from above `lower_bound`. -/
def backwardDFS (r : Rep) (n lower_bound : Nat) : Rep × List Nat :=
  let result := DepthFirst.run r.ins
    (fun _ => false) (fun w => decide (lower_bound < r.rank w))
    (DepthFirst.budget r.ins r.nodes) r.visited [] [n]
  ({ r with visited := result.visited }, result.delta)

def clearVisitedBits (r : Rep) (delta : List Nat) : Rep :=
  { r with visited := fun n => r.visited n && !delta.contains n }

def sort (r : Rep) (delta : List Nat) : List Nat :=
  delta.insertionSort (fun a b => r.rank a ≤ r.rank b)

/-- Give the nodes of both searches their ranks back in the order: what
reaches the new edge, then what the new edge reaches. -/
def reorder (r : Rep) (deltab deltaf : List Nat) : Rep :=
  let deltab := r.sort deltab
  let deltaf := r.sort deltaf
  let list := deltab ++ deltaf
  let merged := (deltab.map r.rank).merge (deltaf.map r.rank)
  { r.clearVisitedBits list with rank := reassign list merged r.rank }

/-- Insert an edge, or return false when it would make a cycle. -/
def insertEdge (r : Rep) (x y : Nat) : Rep × Bool :=
  if x = y then (r, false)
  else if r.hasEdge x y then (r, true)
  else if r.rank x ≤ r.rank y then (r.link x y, true)
  else
    match (r.link x y).forwardDFS y (r.rank x) with
    | (searched, deltaf, false) =>
        ((searched.removeEdge x y).clearVisitedBits deltaf, false)
    | (searched, deltaf, true) =>
        let (searched, deltab) := searched.backwardDFS x (r.rank y)
        (searched.reorder deltab deltaf, true)

def isReachableNonConst (r : Rep) (x y : Nat) : Rep × Bool :=
  if x = y then (r, true)
  else if r.rank y ≤ r.rank x then (r, false)
  else
    let (searched, deltaf, completed) := r.forwardDFS x (r.rank y)
    (searched.clearVisitedBits deltaf, !completed)

/-- Insert edges one after the other, ignoring refusals. -/
def insertEdges (r : Rep) : List (Nat × Nat) → Rep
  | [] => r
  | (x, y) :: edges => (r.insertEdge x y).1.insertEdges edges

/-- Take a node out of the graph. -/
def detach (r : Rep) (b : Nat) : Rep :=
  { r with
    outs := fun x => if x = b then [] else (r.outs x).filter (· != b)
    ins := fun x => if x = b then [] else (r.ins x).filter (· != b)
    free_nodes := b :: r.free_nodes }

/-- Merge `b` into `a`, or return false when that would make a cycle.  Only
called for an edge that is there. -/
def contractEdge (r : Rep) (a b : Nat) : Rep × Bool :=
  match (r.removeEdge a b).isReachableNonConst a b with
  | (searched, true) => ((searched.insertEdge a b).1, false)
  | (searched, false) =>
      let outs := searched.outs b
      let ins := searched.ins b
      let detached := searched.detach b
      let moved := detached.insertEdges (outs.map (fun y => (a, y)))
      (moved.insertEdges (ins.map (fun y => (y, a))), true)

end Rep

end NGraphBridge.GraphCycles
