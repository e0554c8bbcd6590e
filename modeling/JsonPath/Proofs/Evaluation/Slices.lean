import JsonPath.Evaluation.Slice
import Mathlib.Data.List.Nodup

/-! Slices select distinct positions: whatever the bounds and the step are, no index that is
reached in front of the end is negative, so that no two of them are the same position.
-/

namespace JsonPath.Slice

variable {length : Nat} {start stop : Option Int} {step : Int}

/-- A clamped bound is between the ends it is clamped to. -/
theorem clamp_bounds {low high : Int} (h : low ≤ high) (bound : Int)
    : low ≤ clamp length low high bound ∧ clamp length low high bound ≤ high := by
  unfold clamp
  dsimp only
  generalize (if bound < 0 then bound + (length : Int) else bound) = fromStart
  split_ifs <;> omega

/-- Going forwards, the start is not in front of the first element. -/
theorem first_nonneg (positive : 0 < step) : 0 ≤ first length start step := by
  rw [first, if_pos positive]
  cases start with
  | none => exact Int.le_refl 0
  | some bound => exact (clamp_bounds (by omega) bound).1

/-- Going backwards, the end is at most one in front of the first element. -/
theorem neg_one_le_last (negative : step < 0) : -1 ≤ last length stop step := by
  rw [last, if_neg (by omega)]
  cases stop with
  | none => exact Int.le_refl (-1)
  | some bound => exact (clamp_bounds (by omega) bound).1

/-- Downwards, fewer steps than are counted stay behind the end. -/
theorem lt_index {first last : Int} {i : Nat} (negative : step < 0)
    (h : i < count first last step)
    : last < first + i * step := by
  rw [count, if_neg (by omega)] at h
  have fits : (i : Int) + 1 ≤ (first - last - step - 1) / -step := by omega
  have product := (Int.le_ediv_iff_mul_le (by omega)).mp fits
  rw [Int.add_mul, Int.mul_neg] at product
  omega

/-- Each position that is visited is not in front of the first element. -/
theorem index_nonneg {i : Nat} (notZero : step ≠ 0)
    (h : i < count (first length start step) (last length stop step) step)
    : 0 ≤ first length start step + i * step := by
  rcases Int.lt_or_gt_of_ne notZero with negative | positive
  · have inFront := lt_index negative h
    have bound : -1 ≤ last length stop step := neg_one_le_last negative
    omega
  · have bound : 0 ≤ first length start step := first_nonneg positive
    have ahead : 0 ≤ (i : Int) * step := Int.mul_nonneg (by omega) (by omega)
    omega

/-- No position is visited twice. -/
theorem nodup_indices (length : Nat) (start stop : Option Int) (step : Int)
    : (indices length start stop step).Nodup := by
  unfold indices
  split
  next => exact List.nodup_nil
  next notZero =>
    refine List.nodup_range.map_on fun i inRange j inRange' same => ?_
    have nonneg := index_nonneg (i := i) notZero (List.mem_range.mp inRange)
    have nonneg' := index_nonneg (i := j) notZero (List.mem_range.mp inRange')
    have sameSteps : (i : Int) * step = j * step := by omega
    exact_mod_cast Int.eq_of_mul_eq_mul_right notZero sameSteps

end JsonPath.Slice
