import NGraphBridge.TF.GraphDef

/-!
# ClusterManager

The process-wide vector of cluster graphs.  A cluster id is an index into it.
-/

namespace NGraphBridge

open TF

structure ClusterManager where
  s_cluster_graphs : List GraphDef
  deriving DecidableEq, Repr

namespace ClusterManager

def init : ClusterManager := ⟨[]⟩

def newCluster (manager : ClusterManager) : ClusterManager × Nat :=
  (⟨manager.s_cluster_graphs ++ [.empty]⟩, manager.s_cluster_graphs.length)

/-- `GetClusterGraph`; the index is converted to `size_t`, so a negative one is
out of range. -/
def getClusterGraph (manager : ClusterManager) (idx : Int) : Option GraphDef :=
  if idx < 0 then none else manager.s_cluster_graphs[idx.toNat]?

/-- Write through the pointer that `GetClusterGraph` returned. -/
def updateClusterGraph (manager : ClusterManager) (idx : Int)
    (update : GraphDef → GraphDef) : ClusterManager :=
  if idx < 0 then manager
  else ⟨manager.s_cluster_graphs.modify idx.toNat update⟩

def evictAllClusters (_manager : ClusterManager) : ClusterManager := ⟨[]⟩

theorem getClusterGraph_update (manager : ClusterManager) (idx other : Int)
    (update : GraphDef → GraphDef) :
    (manager.updateClusterGraph idx update).getClusterGraph other =
      if other = idx then (manager.getClusterGraph other).map update
      else manager.getClusterGraph other := by
  unfold updateClusterGraph getClusterGraph
  by_cases negative : idx < 0
  · rw [if_pos negative]
    by_cases same : other = idx
    · simp [same, negative]
    · rw [if_neg same]
  · rw [if_neg negative]
    by_cases same : other = idx
    · subst same
      simp [negative]
    · rw [if_neg same]
      by_cases otherNegative : other < 0
      · simp [otherNegative]
      · have different : idx.toNat ≠ other.toNat := by omega
        simp [otherNegative, different]

/-- What a manager has after nodes were added to its graphs. -/
def Appended (before : ClusterManager) (added : Int → List NodeDef)
    (after : ClusterManager) : Prop :=
  ∀ idx, after.getClusterGraph idx =
    (before.getClusterGraph idx).map (fun gdef => ⟨gdef.node ++ added idx⟩)

theorem appended_init (manager : ClusterManager) :
    Appended manager (fun _ => []) manager := by
  intro idx
  simp

/-- No graph of the manager is lost or changed. -/
def Extends (before after : ClusterManager) : Prop :=
  ∀ idx gdef, before.getClusterGraph idx = some gdef →
    after.getClusterGraph idx = some gdef

theorem Extends.refl (manager : ClusterManager) : Extends manager manager :=
  fun _ _ found => found

theorem Extends.trans {first second third : ClusterManager}
    (before : Extends first second) (after : Extends second third) :
    Extends first third :=
  fun idx gdef found => after idx gdef (before idx gdef found)

theorem extends_of_append {before after : ClusterManager} {more : List GraphDef}
    (appended : after.s_cluster_graphs = before.s_cluster_graphs ++ more) :
    Extends before after := by
  intro idx gdef found
  unfold getClusterGraph at found ⊢
  split at found
  case isTrue => simp at found
  case isFalse nonneg =>
    rw [if_neg nonneg, appended]
    exact List.getElem?_append_left (List.getElem?_eq_some_iff.mp found).1 ▸
      found

theorem getClusterGraph_lt {manager : ClusterManager} {idx : Int}
    {gdef : GraphDef} (found : manager.getClusterGraph idx = some gdef) :
    0 ≤ idx ∧ idx < manager.s_cluster_graphs.length := by
  unfold getClusterGraph at found
  split at found
  case isTrue => simp at found
  case isFalse nonneg =>
    have inside := (List.getElem?_eq_some_iff.mp found).1
    omega

end ClusterManager

end NGraphBridge
