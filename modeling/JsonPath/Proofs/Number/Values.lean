import JsonPath.Number.Basic
import JsonPath.Proofs.Number.Rounding
import Mathlib.Data.Rat.Cast.Order
import Mathlib.Order.WithBot

/-! The exact values of numbers: rational numbers with an infinity at each end. The value of
a floating point number is read off its fields, as the format defines it. Comparing two
numbers by their places in units is comparing their values.
-/

namespace JsonPath

/-- Rational numbers with an infinity at each end. -/
abbrev ExtendedRational := WithBot (WithTop ℚ)

namespace Binary64

/-- The magnitude at a finite index, whose quotient and remainder by the size of a binade are
the exponent and the fraction of the format. Without an exponent it is subnormal.
-/
def magnitude (index : Nat) : ℚ :=
  let exponent := index / binade
  let fraction := index % binade
  if exponent = 0 then
    fraction * 2 ^ (-1074 : ℤ)
  else
    (binade + fraction : Nat) * 2 ^ (exponent - 1075 : ℤ)

def value (x : Binary64) : ExtendedRational :=
  if x.isInfinite then
    if x.negative then ⊥ else ⊤
  else
    ((if x.negative then -magnitude x.index.val else magnitude x.index.val : ℚ) : WithTop ℚ)

theorem cast_unitsInOne : (unitsInOne : ℚ) = 2 ^ (1074 : ℤ) := by
  rw [unitsInOne_eq rfl, Nat.cast_pow, ← zpow_natCast]
  rfl

theorem cast_unitsInOne_pos : (0 : ℚ) < unitsInOne := by
  rw [cast_unitsInOne]
  exact zpow_pos (by decide) _

/-- A magnitude is a whole number of units. -/
theorem magnitude_mul_unitsInOne (index : Nat)
    : magnitude index * unitsInOne = unitsAt index := by
  have positive : 0 < binade := Nat.two_pow_pos 52
  rw [magnitude, unitsAt, cast_unitsInOne]
  by_cases low : index < binade
  · rw [if_pos (Nat.div_eq_of_lt low), if_pos low, mul_assoc, ← zpow_add₀ two_ne_zero,
      neg_add_cancel, zpow_zero, mul_one, Nat.mod_eq_of_lt low]
  · have normal : index / binade ≠ 0 := mt (Nat.div_eq_zero_iff_lt positive).mp low
    rw [if_neg normal, if_neg low, mul_assoc, ← zpow_add₀ two_ne_zero]
    generalize index / binade = exponent at normal ⊢
    have units : (exponent - 1075 : ℤ) + 1074 = (exponent - 1 : Nat) := by omega
    rw [units, zpow_natCast, Nat.cast_mul, Nat.pow_eq, Nat.cast_pow, Nat.cast_ofNat]

end Binary64

namespace Place

/-- The value at a place. -/
def value : Place → ExtendedRational
  | below => ⊥
  | finite units => ((units / Binary64.unitsInOne : ℚ) : WithTop ℚ)
  | above => ⊤

/-- Places are ordered as their values are. -/
theorem isLess_iff (a b : Place) : a.isLess b ↔ a.value < b.value := by
  have positive := Binary64.cast_unitsInOne_pos
  have lt_top (x : ℚ) : ((x : WithTop ℚ) : ExtendedRational) < ⊤ :=
    WithBot.coe_lt_coe.mpr (WithTop.coe_lt_top x)
  unfold isLess value
  generalize (Binary64.unitsInOne : ℚ) = one at positive ⊢
  cases a <;> cases b
  all_goals simp [div_lt_div_iff_of_pos_right positive, lt_top]

/-- Places are equal when their values are. -/
theorem eq_iff (a b : Place) : a = b ↔ a.value = b.value := by
  have notZero := Binary64.cast_unitsInOne_pos.ne'
  unfold value
  generalize (Binary64.unitsInOne : ℚ) = one at notZero ⊢
  cases a <;> cases b
  all_goals simp [div_left_inj' notZero]

end Place

namespace Number

/-- The exact value of a number. -/
def value : Number → ExtendedRational
  | int n => ((n : ℚ) : WithTop ℚ)
  | float x => x.value

/-- The place of a number has its value. -/
theorem value_place (a : Number) : a.place.value = a.value := by
  have notZero := Binary64.cast_unitsInOne_pos.ne'
  cases a with
  | int n =>
      have units : ((n * Binary64.unitsInOne : Int) : ℚ) / Binary64.unitsInOne = n := by
        rw [Int.cast_mul, Int.cast_natCast, mul_div_cancel_right₀ _ notZero]
      exact congrArg (fun x : ℚ => ((x : WithTop ℚ) : ExtendedRational)) units
  | float x =>
      have magnitude : Binary64.magnitude x.index.val
          = Binary64.unitsAt x.index.val / Binary64.unitsInOne := by
        rw [← Binary64.magnitude_mul_unitsInOne, mul_div_cancel_right₀ _ notZero]
      change x.place.value = x.value
      rw [Binary64.place, Binary64.value, magnitude]
      split
      · split <;> rfl
      · rw [Place.value]
        split
        · rw [Int.cast_neg, Int.cast_natCast, neg_div]
        · rw [Int.cast_natCast]

/-- Numbers are equal exactly if they denote the same value. -/
theorem isEqual_iff (a b : Number) : a.isEqual b ↔ a.value = b.value := by
  rw [isEqual, decide_eq_true_eq, Place.eq_iff, value_place, value_place]

/-- The order of numbers is the order of the values they denote. -/
theorem isLess_iff (a b : Number) : a.isLess b ↔ a.value < b.value := by
  rw [isLess, Place.isLess_iff, value_place, value_place]

end Number

end JsonPath
