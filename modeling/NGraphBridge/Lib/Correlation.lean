import Mathlib.Algebra.BigOperators.Group.Finset.Sigma
import Mathlib.Algebra.BigOperators.Ring.Finset
import Mathlib.Algebra.Order.Group.Int
import Mathlib.Tactic.Ring
import NGraphBridge.Lib.Tensor

/-!
# Correlation of a plane and a kernel

A kernel is moved over a padded plane. What it meets outside of the plane is
zero.
-/

namespace NGraphBridge.Correlation

/-- How a kernel is moved along one axis. -/
structure Sweep where
  stride : Nat
  dilation : Nat
  below : Int
  above : Int
  deriving DecidableEq, Repr

namespace Sweep

/-- The entries that a kernel spans. -/
def reach (sweep : Sweep) (size : Nat) : Int := (size - 1) * sweep.dilation + 1

def padded (sweep : Sweep) (dim : Nat) : Int := dim + sweep.below + sweep.above

def Fits (sweep : Sweep) (dim size : Nat) : Prop :=
  sweep.reach size ≤ sweep.padded dim

instance (sweep : Sweep) (dim size : Nat) : Decidable (sweep.Fits dim size) :=
  inferInstanceAs (Decidable (sweep.reach size ≤ sweep.padded dim))

/-- The number of places of a kernel. -/
def places (sweep : Sweep) (dim size : Nat) : Nat :=
  ((sweep.padded dim - sweep.reach size) / sweep.stride + 1).toNat

/-- What an entry of the kernel meets at a place. -/
def source (sweep : Sweep) (place offset : Nat) : Int :=
  place * sweep.stride + offset * sweep.dilation - sweep.below

variable {sweep : Sweep} {dim size : Nat}

theorem reach_pos (nonempty : 0 < size) : 1 ≤ sweep.reach size := by
  have span : 0 ≤ ((size : Int) - 1) * sweep.dilation := by
    apply Int.mul_nonneg
    · omega
    · exact Int.natCast_nonneg _
  rw [reach]
  omega

theorem source_zero : sweep.source 0 0 = -sweep.below := by
  rw [source]
  simp

theorem places_pos (fits : sweep.Fits dim size) :
    0 < sweep.places dim size := by
  have fits : sweep.reach size ≤ sweep.padded dim := fits
  have quotient : 0 ≤ (sweep.padded dim - sweep.reach size) / sweep.stride :=
    Int.ediv_nonneg (by omega) (Int.natCast_nonneg _)
  rw [places]
  omega

theorem places_eq (positive : 0 < sweep.stride) :
    sweep.places dim size =
      ((sweep.padded dim - sweep.reach size + sweep.stride) /
        sweep.stride).toNat := by
  have nonzero : (sweep.stride : Int) ≠ 0 := by omega
  have counted :=
    Int.add_mul_ediv_right (sweep.padded dim - sweep.reach size) 1 nonzero
  rw [Int.one_mul] at counted
  rw [places, counted]

end Sweep

section Same

/-- The places that are as many as there are strides in the dimension. -/
def samePlaces (dim stride : Nat) : Int := ((dim : Int) + stride - 1) / stride

/-- What has to be added for these places. -/
def sameTotal (dim stride : Nat) (reach : Int) : Int :=
  max 0 ((samePlaces dim stride - 1) * stride + reach - dim)

variable {sweep : Sweep} {dim size : Nat}

theorem places_same (positive : 0 < sweep.stride) (nonempty : 0 < size)
    (total : sweep.below + sweep.above = sameTotal dim sweep.stride
      (sweep.reach size)) :
    sweep.places dim size = (samePlaces dim sweep.stride).toNat := by
  have stridePositive : (0 : Int) < sweep.stride := by omega
  have spans := @Sweep.reach_pos sweep size nonempty
  have widened :
      sweep.padded dim = dim + sameTotal dim sweep.stride
        (sweep.reach size) := by
    rw [Sweep.padded, Int.add_assoc, total]
  have quotient : (sweep.padded dim - sweep.reach size) / sweep.stride =
      samePlaces dim sweep.stride - 1 := by
    rw [widened, sameTotal]
    cases Int.le_total
      ((samePlaces dim sweep.stride - 1) * sweep.stride +
        sweep.reach size - dim) 0 with
    | inr needed =>
        rw [Int.max_eq_right needed]
        have rest : dim +
            ((samePlaces dim sweep.stride - 1) * sweep.stride +
              sweep.reach size - dim)
            - sweep.reach size = (samePlaces dim sweep.stride - 1) *
            sweep.stride := by ring
        rw [rest, Int.mul_ediv_cancel _ (Int.ne_of_gt stridePositive)]
    | inl none =>
        rw [Int.max_eq_left none, Int.add_zero]
        have covered :
            (dim : Int) ≤ samePlaces dim sweep.stride * sweep.stride := by
          have split := Int.emod_add_mul_ediv ((dim : Int) + sweep.stride - 1)
            sweep.stride
          have below := Int.emod_lt_of_pos ((dim : Int) + sweep.stride - 1)
            stridePositive
          rw [Int.mul_comm] at split
          rw [samePlaces]
          omega
        have unfolded : (samePlaces dim sweep.stride - 1) * sweep.stride =
            samePlaces dim sweep.stride * sweep.stride - sweep.stride := by ring
        apply Int.le_antisymm
        · have less : ((dim : Int) - sweep.reach size) / sweep.stride <
              samePlaces dim sweep.stride :=
            Int.ediv_lt_of_lt_mul stridePositive (by omega)
          omega
        · exact Int.le_ediv_of_mul_le stridePositive (by omega)
  rw [Sweep.places, quotient]
  congr 1
  omega

end Same

section Correlate

variable {R : Type*} [CommSemiring R]

/-- A plane, with zeros around it. -/
def sample (h w : Nat) (plane : Nat → Nat → R) (y x : Int) : R :=
  if (0 ≤ y ∧ y < h) ∧ 0 ≤ x ∧ x < w then plane y.toNat x.toNat else 0

/-- The sum over the entries of the kernel at a place. -/
def correlate (rows cols : Sweep) (h w kh kw : Nat)
    (plane kernel : Nat → Nat → R) (y x : Nat) : R :=
  ∑ i ∈ Finset.range kh, ∑ j ∈ Finset.range kw,
    sample h w plane (rows.source y i) (cols.source x j) * kernel i j

variable {h w kh kw : Nat} {plane other kernel filter : Nat → Nat → R}
  {rows cols : Sweep}

theorem sample_congr {y x : Int}
    (agree : ∀ i < h, ∀ j < w, plane i j = other i j) :
    sample h w plane y x = sample h w other y x := by
  unfold sample
  split
  next inside => exact agree _ (by omega) _ (by omega)
  next => rfl

theorem correlate_congr {y x : Nat}
    (planes : ∀ i < h, ∀ j < w, plane i j = other i j)
    (kernels : ∀ i < kh, ∀ j < kw, kernel i j = filter i j) :
    correlate rows cols h w kh kw plane kernel y x =
      correlate rows cols h w kh kw other filter y x := by
  apply Finset.sum_congr rfl
  intro i atRow
  apply Finset.sum_congr rfl
  intro j atCol
  rw [sample_congr planes,
    kernels i (Finset.mem_range.mp atRow) j (Finset.mem_range.mp atCol)]

theorem sum_correlate {ι : Type*} (channels : Finset ι)
    (planes kernels : ι → Nat → Nat → R) (y x : Nat) :
    ∑ c ∈ channels, correlate rows cols h w kh kw (planes c) (kernels c) y x =
      ∑ i ∈ Finset.range kh, ∑ j ∈ Finset.range kw, ∑ c ∈ channels,
        sample h w (planes c) (rows.source y i) (cols.source x j) *
          kernels c i j := by
  unfold correlate
  rw [Finset.sum_comm]
  apply Finset.sum_congr rfl
  intro i _
  exact Finset.sum_comm

/-- A kernel with one entry, its first. -/
def corner : Nat → Nat → R := fun i j => if i = 0 ∧ j = 0 then 1 else 0

theorem correlate_corner (kernelRows : 0 < kh) (kernelCols : 0 < kw)
    (y x : Nat) :
    correlate rows cols h w kh kw plane corner y x =
      sample h w plane (rows.source y 0) (cols.source x 0) := by
  unfold correlate
  rw [Finset.sum_eq_single_of_mem 0 (Finset.mem_range.mpr kernelRows),
    Finset.sum_eq_single_of_mem 0 (Finset.mem_range.mpr kernelCols)]
  · simp [corner]
  · intro j _ other
    simp [corner, other]
  · intro i _ other
    simp [corner, other]

end Correlate

end NGraphBridge.Correlation
