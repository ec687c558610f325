import Mathlib.Data.List.Pairwise
import Mathlib.Data.List.Nodup

/-!
# Order of last use

A list of uses, the latest first, orders its members by their last use.
-/

namespace NGraphBridge.Recency

variable {Key : Type*} [DecidableEq Key]

/-- `left` was used after the last use of `right`. -/
def MoreRecent (uses : List Key) (left right : Key) : Prop :=
  uses.idxOf left < uses.idxOf right

/-- Each key was last used after those behind it. -/
def ByRecency (uses keys : List Key) : Prop :=
  keys.Pairwise (MoreRecent uses)

variable {uses keys : List Key}

theorem byRecency_nil : ByRecency uses ([] : List Key) := List.Pairwise.nil

theorem ByRecency.nodup (ordered : ByRecency uses keys) : keys.Nodup := by
  apply List.Pairwise.imp _ ordered
  intro left right recent same
  rw [MoreRecent, same] at recent
  exact absurd recent (Nat.lt_irrefl _)

theorem moreRecent_cons_self {key other : Key} (apart : other ≠ key) :
    MoreRecent (key :: uses) key other := by
  rw [MoreRecent, List.idxOf_cons_self, List.idxOf_cons_ne _ (Ne.symm apart)]
  exact Nat.succ_pos _

theorem MoreRecent.cons {key left right : Key}
    (recent : MoreRecent uses left right) (leftApart : left ≠ key)
    (rightApart : right ≠ key) :
    MoreRecent (key :: uses) left right := by
  rw [MoreRecent, List.idxOf_cons_ne _ (Ne.symm leftApart),
    List.idxOf_cons_ne _ (Ne.symm rightApart)]
  exact Nat.succ_lt_succ recent

theorem ByRecency.use (ordered : ByRecency uses keys) (key : Key) :
    ByRecency (key :: uses) (key :: keys.filter (· ≠ key)) := by
  apply List.pairwise_cons.mpr
  constructor
  · intro other member
    exact moreRecent_cons_self (by simpa using (List.mem_filter.mp member).2)
  · apply List.Pairwise.imp_of_mem _ (ordered.filter _)
    intro left right isLeft isRight recent
    exact recent.cons (by simpa using (List.mem_filter.mp isLeft).2)
      (by simpa using (List.mem_filter.mp isRight).2)

theorem ByRecency.sublist {fewer : List Key} (ordered : ByRecency uses keys)
    (sublist : fewer.Sublist keys) : ByRecency uses fewer :=
  List.Pairwise.sublist sublist ordered

theorem ByRecency.last (ordered : ByRecency uses keys) {key other : Key}
    (isLast : keys.getLast? = some key) (member : other ∈ keys)
    (apart : other ≠ key) :
    MoreRecent uses other key := by
  obtain ⟨before, rfl⟩ := List.getLast?_eq_some_iff.mp isLast
  have inBefore : other ∈ before := by
    cases List.mem_append.mp member with
    | inl earlier => exact earlier
    | inr here => exact absurd (List.mem_singleton.mp here) apart
  exact (List.pairwise_append.mp ordered).2.2 other inBefore key
    (List.mem_singleton_self _)

end NGraphBridge.Recency
