import Mathlib.Algebra.Order.BigOperators.Group.List
import Mathlib.Algebra.Order.Field.Basic
import Mathlib.Algebra.BigOperators.Ring.List

/-!
# Weighted means

The mean of the values `s i` over a list, each with the weight `w i`.  With weights that are not
negative and do not vanish altogether it lies between any two bounds of the values, so it is the
common value where there is one.
-/

variable {ι K : Type} [Field K] [LinearOrder K] [IsStrictOrderedRing K]

/-- The mean of the scores with their weights. -/
def weightedMean (l : List ι) (w s : ι → K) : K := (l.map fun i => w i * s i).sum / (l.map w).sum

variable {l : List ι} {w s : ι → K} {c : K}

theorem le_weightedMean (hw : ∀ i ∈ l, 0 ≤ w i) (hpos : 0 < (l.map w).sum)
    (hs : ∀ i ∈ l, c ≤ s i) : c ≤ weightedMean l w s := by
  rw [weightedMean, le_div_iff₀ hpos, mul_comm, ← List.sum_map_mul_right]
  exact List.sum_le_sum fun i hi => mul_le_mul_of_nonneg_left (hs i hi) (hw i hi)

theorem weightedMean_le (hw : ∀ i ∈ l, 0 ≤ w i) (hpos : 0 < (l.map w).sum)
    (hs : ∀ i ∈ l, s i ≤ c) : weightedMean l w s ≤ c := by
  rw [weightedMean, div_le_iff₀ hpos, mul_comm, ← List.sum_map_mul_right]
  exact List.sum_le_sum fun i hi => mul_le_mul_of_nonneg_left (hs i hi) (hw i hi)

/-- The mean of equal values. -/
theorem weightedMean_of_eq (hw : ∀ i ∈ l, 0 ≤ w i) (hpos : 0 < (l.map w).sum)
    (hs : ∀ i ∈ l, s i = c) : weightedMean l w s = c :=
  le_antisymm (weightedMean_le hw hpos fun i hi => (hs i hi).le)
    (le_weightedMean hw hpos fun i hi => (hs i hi).ge)

/-- Some weight is positive, and none is negative. -/
theorem sum_weights_pos (hw : ∀ i ∈ l, 0 < w i) (hl : l ≠ []) : 0 < (l.map w).sum := by
  refine List.sum_pos _ ?_ (by simpa using hl)
  intro x hx
  obtain ⟨i, hi, rfl⟩ := List.mem_map.mp hx
  exact hw i hi
