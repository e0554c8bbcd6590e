import JsonPath.Proofs.Evaluation.Slices

/-! Slices as a loop over indexes, the way RFC 9535 prescribes it in section 2.3.4.2: both
bounds are counted from the start and moved into a range that depends on the direction, and
the indexes from the first bound on are visited in equal steps as long as they are in front of
the other one. The indexes that are computed from the number of steps are the visited ones.
-/

namespace JsonPath.Slice

-----------------------------------------------------------------------------------------
-- The loop
-----------------------------------------------------------------------------------------

/-- A bound counted from the start of the array. -/
def normalize (length : Nat) (bound : Int) : Int :=
  if 0 ≤ bound then bound else length + bound

/-- The number of the range that is closest to the given one. -/
def confine (low high n : Int) : Int :=
  min (max n low) high

/-- The indexes from the given one on, in equal steps, while they are in front of the end in
the direction of the step.
-/
def traverse (step stop index : Int) : List Int :=
  if 0 < step ∧ index < stop ∨ step < 0 ∧ stop < index then
    index :: traverse step stop (index + step)
  else []
termination_by if 0 < step then (stop - index).toNat else (index - stop).toNat
decreasing_by split <;> omega

/-- The indexes that a slice visits in an array of the given length. Upwards, bounds lie
between the first element and the place behind the last one, and downwards between the place
in front of the first element and the last one.
-/
def visited (length : Nat) (start stop : Option Int) (step : Int) : List Int :=
  if 0 < step then
    let lower := confine 0 length (normalize length (start.getD 0))
    let upper := confine 0 length (normalize length (stop.getD length))
    traverse step upper lower
  else if step < 0 then
    let upper := confine (-1) (length - 1) (normalize length (start.getD (length - 1)))
    let lower :=
      match stop with
      | some bound => confine (-1) (length - 1) (normalize length bound)
      | none => -1
    traverse step lower upper
  else []

-----------------------------------------------------------------------------------------
-- The number of steps
-----------------------------------------------------------------------------------------

variable {length : Nat} {start stop : Option Int} {step : Int}

/-- In front of the end there is one step more to count than behind that step. -/
theorem count_of_inFront {last index : Int}
    (inFront : 0 < step ∧ index < last ∨ step < 0 ∧ last < index)
    : count index last step = count (index + step) last step + 1 := by
  rcases inFront with ⟨positive, before⟩ | ⟨negative, behind⟩
  · have apart : last - index + step - 1 = last - (index + step) + step - 1 + 1 * step := by omega
    have rest : 0 ≤ (last - (index + step) + step - 1) / step :=
      Int.ediv_nonneg (by omega) (by omega)
    rw [count, count, if_pos positive, if_pos positive, apart,
      Int.add_mul_ediv_right _ _ (by omega)]
    omega
  · have apart : index - last - step - 1 = index + step - last - step - 1 + 1 * -step := by omega
    have rest : 0 ≤ (index + step - last - step - 1) / -step :=
      Int.ediv_nonneg (by omega) (by omega)
    rw [count, count, if_neg (by omega), if_neg (by omega), apart,
      Int.add_mul_ediv_right _ _ (by omega)]
    omega

/-- No step is made when the last position is not in front of the first one. -/
theorem count_of_not_inFront {last index : Int} (notZero : step ≠ 0)
    (notInFront : ¬(0 < step ∧ index < last ∨ step < 0 ∧ last < index))
    : count index last step = 0 := by
  rcases Int.lt_or_gt_of_ne notZero with negative | positive
  · have less : (index - last - step - 1) / -step < 1 :=
      Int.ediv_lt_of_lt_mul (by omega) (by omega)
    rw [count, if_neg (by omega)]
    omega
  · have less : (last - index + step - 1) / step < 1 :=
      Int.ediv_lt_of_lt_mul (by omega) (by omega)
    rw [count, if_pos positive]
    omega

/-- The loop takes as many steps as are counted, by induction along the loop. -/
theorem traverse_eq_map_range (notZero : step ≠ 0) (last index : Int)
    : traverse step last index
        = (List.range (count index last step)).map fun i : Nat => index + i * step := by
  induction index using traverse.induct step last with
  | case1 index inFront ih =>
      rw [traverse, if_pos inFront, ih, count_of_inFront inFront, List.range_succ_eq_map,
        List.map_cons, List.map_map]
      congr 1
      · simp
      · refine List.map_congr_left fun i _ => ?_
        simp only [Function.comp_apply, Nat.succ_eq_add_one, Int.natCast_add, Int.natCast_one,
          Int.add_mul, Int.one_mul]
        omega
  | case2 index notInFront =>
      rw [traverse, if_neg notInFront, count_of_not_inFront notZero notInFront]
      rfl

-----------------------------------------------------------------------------------------
-- The bounds
-----------------------------------------------------------------------------------------

/-- Clamping a bound is confining it, once it counts from the start. -/
theorem clamp_eq_confine {low high : Int} (h : low ≤ high) (bound : Int)
    : clamp length low high bound = confine low high (normalize length bound) := by
  unfold clamp confine normalize
  dsimp only
  split_ifs <;> omega

/-- The loop visits what is traversed between the first and the last position. -/
theorem visited_eq_traverse (notZero : step ≠ 0)
    : visited length start stop step
        = traverse step (last length stop step) (first length start step) := by
  rcases Int.lt_or_gt_of_ne notZero with negative | positive
  · have bounds : (-1 : Int) ≤ length - 1 := by omega
    have atLast : confine (-1) (length - 1) (normalize length (length - 1)) = length - 1 := by
      unfold confine normalize
      split <;> omega
    rw [visited.eq_def, if_neg (by omega), if_pos negative, first, last, if_neg (by omega),
      if_neg (by omega)]
    cases start <;> cases stop <;> simp [atLast, clamp_eq_confine bounds]
  · have bounds : (0 : Int) ≤ length := by omega
    have atFirst : confine 0 length (normalize length 0) = 0 := by
      unfold confine normalize
      split <;> omega
    have atEnd : confine 0 length (normalize length length) = length := by
      unfold confine normalize
      split <;> omega
    rw [visited.eq_def, if_pos positive, first, last, if_pos positive, if_pos positive]
    cases start <;> cases stop <;> simp [atFirst, atEnd, clamp_eq_confine bounds]

/-- Going forwards, the end is not behind the last element. -/
theorem last_le_length (positive : 0 < step) : last length stop step ≤ length := by
  rw [last, if_pos positive]
  cases stop with
  | none => exact Int.le_refl _
  | some bound => exact (clamp_bounds (by omega) bound).2

/-- Going backwards, the start is an element or in front of all. -/
theorem first_lt_length (negative : step < 0) : first length start step < length := by
  rw [first, if_neg (by omega)]
  cases start with
  | none =>
      rw [Option.map_none, Option.getD_none]
      omega
  | some bound =>
      have below : clamp length (-1) (length - 1) bound ≤ length - 1 :=
        (clamp_bounds (by omega) bound).2
      rw [Option.map_some, Option.getD_some]
      omega

-----------------------------------------------------------------------------------------
-- The indexes
-----------------------------------------------------------------------------------------

/-- Upwards, fewer steps than are counted stay in front of the end. -/
theorem index_lt {first last : Int} {i : Nat} (positive : 0 < step)
    (h : i < count first last step)
    : first + i * step < last := by
  rw [count, if_pos positive] at h
  have fits : (i : Int) + 1 ≤ (last - first + step - 1) / step := by omega
  have product := (Int.le_ediv_iff_mul_le positive).mp fits
  rw [Int.add_mul] at product
  omega

/-- Each position that is visited is in front of the end of the array. -/
theorem index_lt_length {i : Nat} (notZero : step ≠ 0)
    (h : i < count (first length start step) (last length stop step) step)
    : first length start step + i * step < length := by
  rcases Int.lt_or_gt_of_ne notZero with negative | positive
  · have bound : first length start step < length := first_lt_length negative
    have back : (i : Int) * step ≤ 0 := Int.mul_nonpos_of_nonneg_of_nonpos (by omega) (by omega)
    omega
  · have inFront := index_lt positive h
    have bound : last length stop step ≤ length := last_le_length positive
    omega

theorem indices_of_ne_zero (notZero : step ≠ 0)
    : indices length start stop step
        = (List.range (count (first length start step) (last length stop step) step)).map
          fun i : Nat => (first length start step + i * step).toNat := by
  rw [indices, if_neg notZero]

theorem indices_zero : indices length start stop 0 = [] := by
  rw [indices, if_pos rfl]

theorem map_indices (length : Nat) (start stop : Option Int) (step : Int)
    : (indices length start stop step).map Int.ofNat = visited length start stop step := by
  by_cases notZero : step ≠ 0
  · rw [visited_eq_traverse notZero, traverse_eq_map_range notZero, indices_of_ne_zero notZero,
      List.map_map]
    refine List.map_congr_left fun i inRange => ?_
    exact Int.toNat_of_nonneg (index_nonneg notZero (List.mem_range.mp inRange))
  · obtain rfl := not_not.mp notZero
    rw [indices_zero, visited.eq_def, if_neg (by omega), if_neg (by omega)]
    rfl

theorem lt_length_of_mem_indices {index : Nat} (h : index ∈ indices length start stop step)
    : index < length := by
  by_cases notZero : step ≠ 0
  · rw [indices_of_ne_zero notZero] at h
    obtain ⟨i, inRange, rfl⟩ := List.mem_map.mp h
    have inside := List.mem_range.mp inRange
    have bound := index_lt_length notZero inside
    have nonneg := index_nonneg notZero inside
    omega
  · obtain rfl := not_not.mp notZero
    rw [indices_zero] at h
    cases h

/-- Later indexes are farther in the direction of the step. -/
theorem pairwise_indices (length : Nat) (start stop : Option Int) (step : Int)
    : (indices length start stop step).Pairwise fun i j =>
        if 0 < step then i < j else j < i := by
  by_cases notZero : step ≠ 0
  · rw [indices_of_ne_zero notZero, List.pairwise_map]
    refine List.pairwise_lt_range.imp_of_mem fun {i j} inRange inRange' earlier => ?_
    have nonneg := index_nonneg notZero (List.mem_range.mp inRange)
    have nonneg' := index_nonneg notZero (List.mem_range.mp inRange')
    have earlier' : (i : Int) < j := by omega
    split
    next positive =>
      have ahead : (i : Int) * step < j * step := Int.mul_lt_mul_of_pos_right earlier' positive
      omega
    next notPositive =>
      have back : (j : Int) * step < i * step := Int.mul_lt_mul_of_neg_right earlier' (by omega)
      omega
  · obtain rfl := not_not.mp notZero
    rw [indices_zero]
    exact .nil

/-- A slice selects the indexes that the loop visits, in the same order. All of them are
indexes of the array, and they grow when the step is positive and fall otherwise.
-/
theorem indices_eq_visited (length : Nat) (start stop : Option Int) (step : Int)
    : (indices length start stop step).map Int.ofNat = visited length start stop step
      ∧ (∀ index ∈ indices length start stop step, index < length)
      ∧ (indices length start stop step).Pairwise fun i j =>
          if 0 < step then i < j else j < i :=
  ⟨map_indices length start stop step, fun _ => lt_length_of_mem_indices,
    pairwise_indices length start stop step⟩

/-- Backwards in steps of two from the last but one of five elements to the first one. -/
theorem indices_backwards
    : indices 5 (some (-2)) none (-2) = [3, 1]
      ∧ 1 ∈ indices 5 (some (-2)) none (-2) ∧ 1 < 5
      ∧ visited 5 (some (-2)) none (-2) = [3, 1] := by
  have ⟨loop, inside, _⟩ := indices_eq_visited 5 (some (-2)) none (-2)
  have selected : indices 5 (some (-2)) none (-2) = [3, 1] := by decide
  have member : 1 ∈ indices 5 (some (-2)) none (-2) := by decide
  rw [selected] at loop
  exact ⟨selected, member, inside 1 member, loop.symm⟩

end JsonPath.Slice
