import JsonPath.Number.Shortest
import Mathlib.Tactic.Ring

/-! Reading a decimal number depends only on the value that it denotes, and the shortest
decimal of a magnitude reads back as it. Indexes beyond the last one mean infinity, so they
are compared up to that.
-/

namespace JsonPath.Binary64

-----------------------------------------------------------------------------------------
-- Quotients
-----------------------------------------------------------------------------------------

/-- Rounding a quotient does not depend on a common factor. -/
theorem roundQuotient_mul_right (a b : Nat) {k : Nat} (positive : 0 < k)
    : roundQuotient (a * k) (b * k) = roundQuotient a b := by
  have twice : 2 * (a % b * k) = 2 * (a % b) * k := by ring
  simp only [roundQuotient, Nat.mul_div_mul_right _ _ positive, Nat.mul_mod_mul_right, twice,
    Nat.mul_lt_mul_right positive]

/-- The nearest float of a quotient does not depend on a common factor. -/
theorem nearestIndex_mul_right (a b : Nat) {k : Nat} (positive : 0 < k)
    : nearestIndex (a * k) (b * k) = nearestIndex a b := by
  simp only [nearestIndex, Nat.mul_div_mul_right _ _ positive]
  rw [show b * k * Nat.pow 2 ((a / b).log2 + 1 - 53)
      = b * Nat.pow 2 ((a / b).log2 + 1 - 53) * k by ring,
    roundQuotient_mul_right _ _ positive]

/-- The nearest index is that of the quotient, however it is written. -/
theorem nearestIndex_congr {a b c d : Nat} (hb : 0 < b) (hd : 0 < d) (h : a * d = c * b)
    : nearestIndex a b = nearestIndex c d :=
  calc nearestIndex a b
    _ = nearestIndex (a * d) (b * d) := (nearestIndex_mul_right a b hd).symm
    _ = nearestIndex (c * b) (d * b) := by rw [h, Nat.mul_comm b d]
    _ = nearestIndex c d := nearestIndex_mul_right c d hb

/-- A quotient without a rest is not rounded. -/
theorem roundQuotient_mul_self (a : Nat) {b : Nat} (positive : 0 < b)
    : roundQuotient (a * b) b = a := by
  simp [roundQuotient, positive]

/-- Less than half of the least float is rounded to zero. -/
theorem nearestIndex_eq_zero {a b : Nat} (h : 2 * a < b) : nearestIndex a b = 0 := by
  have quotient : a / b = 0 := Nat.div_eq_of_lt (by omega)
  have remainder : a % b = a := Nat.mod_eq_of_lt (by omega)
  simp [nearestIndex, roundQuotient, quotient, remainder, h]

/-- Quotients of many binary digits are beyond the last finite magnitude. -/
theorem infinityIndex_le_nearestIndex {a digits : Nat} (many : 2099 ≤ digits)
    (h : 2 ^ digits ≤ a)
    : infinityIndex ≤ nearestIndex a 1 := by
  have notZero : a ≠ 0 := by
    have positive := Nat.two_pow_pos digits
    omega
  have enough : digits ≤ a.log2 := (Nat.le_log2 notZero).mpr h
  rw [nearestIndex, Nat.div_one, infinityIndex]
  exact le_add_right (Nat.mul_le_mul_right _ (by omega))

-----------------------------------------------------------------------------------------
-- Decimal numbers
-----------------------------------------------------------------------------------------

/-- The units of a decimal number, times a power of ten when the exponent is negative. -/
def decimalUnits (significand : Nat) : Int → Nat
  | .ofNat e => significand * Nat.pow 10 e * unitsInOne
  | .negSucc _ => significand * unitsInOne

/-- The power of ten that the units of a decimal number are divided by. -/
def decimalScale : Int → Nat
  | .ofNat _ => 1
  | .negSucc e => Nat.pow 10 (e + 1)

theorem decimalScale_pos (exponent : Int) : 0 < decimalScale exponent := by
  cases exponent with
  | ofNat _ => exact Nat.one_pos
  | negSucc e => exact Nat.pow_pos (by decide)

/-- The number of units in one, with an exponent that is not a literal: powers of this size
are not to be computed.
-/
theorem unitsInOne_eq {k : Nat} (h : k = 1074) : unitsInOne = 2 ^ k := by
  unfold unitsInOne
  rw [← h]
  exact Nat.pow_eq

/-- A power of ten is at least that of eight. -/
theorem two_pow_le_ten_pow (n : Nat) : 2 ^ (3 * n) ≤ 10 ^ n := by
  rw [Nat.pow_mul]
  exact Nat.pow_le_pow_left (by decide) n

/-- The exponents that are decided without computing the power are decided alike. -/
theorem min_decimalIndex (significand : Nat) (exponent : Int)
    : min (decimalIndex significand exponent) infinityIndex
      = min (nearestIndex (decimalUnits significand exponent) (decimalScale exponent))
          infinityIndex := by
  unfold decimalIndex
  split
  next isZero =>
    subst isZero
    have zero : decimalUnits 0 exponent = 0 := by cases exponent <;> simp [decimalUnits]
    rw [zero, nearestIndex_eq_zero (by simpa using decimalScale_pos exponent)]
  next notZero =>
    have positive : 1 ≤ significand := Nat.one_le_iff_ne_zero.mpr notZero
    obtain ⟨k, exponent_eq⟩ : ∃ k, k = 1074 := ⟨1074, rfl⟩
    have units := unitsInOne_eq exponent_eq
    split
    next e =>
      split
      next large =>
        have large : 2 ^ (3 * e + k) ≤ significand * Nat.pow 10 e * unitsInOne := by
          calc 2 ^ (3 * e + k)
            _ = 2 ^ (3 * e) * unitsInOne := by rw [Nat.pow_add, units]
            _ ≤ 10 ^ e * unitsInOne := Nat.mul_le_mul_right _ (two_pow_le_ten_pow e)
            _ = 1 * Nat.pow 10 e * unitsInOne := by rw [Nat.one_mul, Nat.pow_eq]
            _ ≤ significand * Nat.pow 10 e * unitsInOne :=
                Nat.mul_le_mul_right _ (Nat.mul_le_mul_right _ positive)
        have beyond := infinityIndex_le_nearestIndex (by omega) large
        simp only [decimalUnits, decimalScale, Nat.min_self, Nat.min_eq_right beyond]
      next => rfl
    next e =>
      split
      next small =>
        have tiny : 2 * (significand * unitsInOne) < Nat.pow 10 (e + 1) := by
          calc 2 * (significand * unitsInOne)
            _ = 2 * (significand * 2 ^ k) := by rw [units]
            _ < 2 * (2 ^ (significand.log2 + 1) * 2 ^ k) :=
                Nat.mul_lt_mul_of_pos_left
                  (Nat.mul_lt_mul_of_pos_right Nat.lt_log2_self (Nat.two_pow_pos _)) (by decide)
            _ = 2 ^ (significand.log2 + 2 + k) := by ring
            _ ≤ 2 ^ (3 * (e + 1)) := Nat.pow_le_pow_right (by decide) (by omega)
            _ ≤ 10 ^ (e + 1) := two_pow_le_ten_pow (e + 1)
        simp only [decimalUnits, decimalScale, nearestIndex_eq_zero tiny]
      next => rfl

/-- Shifting the decimal point changes the significand and the exponent only. -/
theorem decimalUnits_shift (significand shift : Nat) (exponent : Int)
    : decimalUnits (significand * 10 ^ shift) exponent * decimalScale (exponent + shift)
      = decimalUnits significand (exponent + shift) * decimalScale exponent := by
  cases exponent with
  | ofNat e =>
      have sum : Int.ofNat e + shift = Int.ofNat (e + shift) := rfl
      rw [sum]
      simp only [decimalUnits, decimalScale, Nat.pow_eq]
      ring
  | negSucc e =>
      rcases Nat.lt_or_ge e shift with more | less
      · obtain ⟨rest, rfl⟩ := Nat.exists_eq_add_of_lt more
        have sum : Int.negSucc e + ((e + rest + 1 : Nat) : Int) = Int.ofNat rest := by
          simp only [Int.ofNat_eq_natCast]
          omega
        rw [sum]
        simp only [decimalUnits, decimalScale, Nat.pow_eq]
        ring
      · obtain ⟨rest, rfl⟩ := Nat.exists_eq_add_of_le less
        have sum : Int.negSucc (shift + rest) + (shift : Int) = Int.negSucc rest := by omega
        rw [sum]
        simp only [decimalUnits, decimalScale, Nat.pow_eq]
        ring

/-- Zeros behind the significand count as much as the exponent. -/
theorem min_decimalIndex_shift (significand shift : Nat) (exponent : Int)
    : min (decimalIndex (significand * 10 ^ shift) exponent) infinityIndex
      = min (decimalIndex significand (exponent + shift)) infinityIndex := by
  rw [min_decimalIndex, min_decimalIndex,
    nearestIndex_congr (decimalScale_pos exponent) (decimalScale_pos (exponent + shift))
      (decimalUnits_shift significand shift exponent)]

-----------------------------------------------------------------------------------------
-- Shortest decimals
-----------------------------------------------------------------------------------------

/-- Finite magnitudes are nearest to themselves. -/
theorem nearestIndex_unitsAt (index : Nat) : nearestIndex (unitsAt index) 1 = index := by
  have binade_eq : binade = 2 ^ 52 := rfl
  unfold unitsAt
  split
  next low =>
    have digits : index.log2 + 1 - 53 = 0 := by
      rcases Nat.eq_zero_or_pos index with rfl | positive
      · rfl
      · have few : index.log2 < 52 := (Nat.log2_lt (by omega)).mpr (binade_eq ▸ low)
        omega
    have rounded := roundQuotient_mul_self index Nat.one_pos
    rw [Nat.mul_one] at rounded
    rw [nearestIndex, Nat.div_one, digits]
    simpa using rounded
  next high =>
    generalize division : index / binade = quotient
    generalize remainder : index % binade = rest
    have whole : binade * quotient + rest = index :=
      division ▸ remainder ▸ Nat.div_add_mod index binade
    have restLess : rest < binade := remainder ▸ Nat.mod_lt _ (by decide)
    obtain ⟨lower, rfl⟩ : ∃ lower, quotient = lower + 1 := by
      refine ⟨quotient - 1, ?_⟩
      rcases Nat.eq_zero_or_pos quotient with rfl | positive
      · omega
      · omega
    have digits : ((binade + rest) * Nat.pow 2 (lower + 1 - 1)).log2 = 52 + lower := by
      rw [Nat.add_sub_cancel, Nat.pow_eq]
      refine (Nat.log2_eq_iff ?_).mpr ⟨?_, ?_⟩
      · exact Nat.mul_ne_zero (by omega) (Nat.two_pow_pos lower).ne'
      · rw [Nat.pow_add]
        exact Nat.mul_le_mul_right _ (by omega)
      · rw [show 52 + lower + 1 = 53 + lower by omega, Nat.pow_add]
        exact Nat.mul_lt_mul_of_pos_right (by omega) (Nat.two_pow_pos lower)
    rw [nearestIndex, Nat.div_one, digits, show 52 + lower + 1 - 53 = lower by omega,
      Nat.add_sub_cancel, Nat.one_mul, Nat.pow_eq,
      roundQuotient_mul_self _ (Nat.two_pow_pos lower), ← whole]
    ring

/-- The exact decimal of a float is read back as the float. -/
theorem readsBack_exact {index : Nat} (finite : index ≤ infinityIndex)
    : readsBack index (exact index) := by
  obtain ⟨k, exponent_eq⟩ : ∃ k, k = 1073 := ⟨1073, rfl⟩
  have units : unitsInOne = 2 ^ (k + 1) := unitsInOne_eq (by omega)
  have exact_eq : exact index = ⟨unitsAt index * 5 ^ (k + 1), .negSucc k⟩ := by
    have power : 1074 = k + 1 := by omega
    have negated : (-1074 : Int) = .negSucc k := by omega
    unfold exact
    rw [power, negated]
    rfl
  have scale : decimalUnits (unitsAt index * 5 ^ (k + 1)) (.negSucc k) * 1
      = unitsAt index * decimalScale (.negSucc k) := by
    calc decimalUnits (unitsAt index * 5 ^ (k + 1)) (.negSucc k) * 1
      _ = unitsAt index * (5 ^ (k + 1) * 2 ^ (k + 1)) := by
          rw [Nat.mul_one, decimalUnits, units, Nat.mul_assoc]
      _ = unitsAt index * (5 * 2) ^ (k + 1) := by rw [Nat.mul_pow]
      _ = unitsAt index * decimalScale (.negSucc k) := rfl
  rw [exact_eq, readsBack, min_decimalIndex,
    nearestIndex_congr (decimalScale_pos _) Nat.one_pos scale, nearestIndex_unitsAt,
    Nat.min_eq_left finite, decide_eq_true rfl]

/-- A decimal that the grid contains is read back. -/
theorem readsBack_onGrid {index : Nat} {exponent : Int} {d : Decimal}
    (h : onGrid? index exponent = some d)
    : readsBack index d := by
  unfold onGrid? at h
  split at h
  dsimp only at h
  split at h
  next back => exact Option.some.inj h ▸ back
  split at h
  next back => exact Option.some.inj h ▸ back
  split at h
  next back => exact Option.some.inj h ▸ back
  next => cases h

/-- Whatever grid is found, its decimal reads back, by induction on the grids to try. -/
theorem readsBack_shortestFrom {index : Nat} (finite : index ≤ infinityIndex) (leading : Int)
    (digits count : Nat)
    : readsBack index (shortestFrom index leading digits count) := by
  induction count generalizing digits with
  | zero => exact readsBack_exact finite
  | succ count ih =>
      unfold shortestFrom
      split
      next found => exact readsBack_onGrid found
      next => exact ih (digits + 1)

/-- The shortest decimal that is found is read back. -/
theorem readsBack_shortest {index : Nat} (finite : index ≤ infinityIndex)
    : readsBack index (shortest index) := by
  unfold shortest
  split
  next isZero =>
    subst isZero
    rfl
  next => exact readsBack_shortestFrom finite _ _ _

end JsonPath.Binary64
