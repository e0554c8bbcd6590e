import JsonPath.Proofs.Grammar.Token
import Mathlib.Tactic.Linarith

/-! The numbers that digits denote, and the digits that numerals are made of. -/

namespace JsonPath

namespace Grammar

theorem isDigits_of_whole {digits : Text} (h : Whole digits) : IsDigits digits := by
  cases h with
  | zero => exact ⟨by simp, by simp [CodePoint.isDigit]⟩
  | digits first _ others =>
      refine ⟨by simp, ?_⟩
      intro d member
      rcases List.mem_cons.mp member with rfl | member
      · exact first
      · exact others d member

end Grammar

namespace Numeral

open Grammar

-----------------------------------------------------------------------------------------
-- The value of digits
-----------------------------------------------------------------------------------------

/-- Digits are all characters. -/
theorem length_filterMap_char? {digits : Text} (h : ∀ c ∈ digits, CodePoint.isDigit c)
    : (digits.filterMap CodePoint.char?).length = digits.length := by
  induction digits with
  | nil => rfl
  | cons c cs ih =>
      have first := h c (by simp)
      cases c with
      | surrogate _ => cases first
      | char c => simpa [CodePoint.char?] using ih fun d member => h d (by simp [member])

/-- Digits count with the power of ten of the digits behind them. -/
theorem toNat_append (front : Text) {back : Text} (h : ∀ c ∈ back, CodePoint.isDigit c)
    : toNat (front ++ back) = toNat front * 10 ^ back.length + toNat back := by
  rw [toNat, List.filterMap_append, Nat.ofDigitChars_append,
    Nat.ofDigitChars_eq_ofDigitChars_zero, length_filterMap_char? h, Nat.mul_comm]
  rfl

/-- The first digit counts with the power of ten for those behind it. -/
theorem toNat_cons {c : Char} {cs : Text} (h : ∀ d ∈ cs, CodePoint.isDigit d)
    : toNat (.char c :: cs) = (c.toNat - '0'.toNat) * 10 ^ cs.length + toNat cs := by
  have first : toNat [.char c] = c.toNat - '0'.toNat := by
    simp [toNat, CodePoint.char?, Nat.ofDigitChars_cons, Nat.ofDigitChars_nil]
  rw [← first]
  exact toNat_append [.char c] h

theorem toNat_zeros (count : Nat) : toNat (List.replicate count (.char '0')) = 0 := by
  have chars : (List.replicate count (CodePoint.char '0')).filterMap CodePoint.char?
      = List.replicate count '0' := by
    induction count with
    | zero => rfl
    | succ count ih => simpa [List.replicate_succ, CodePoint.char?] using ih
  rw [toNat, chars, Nat.ofDigitChars_replicate_zero, Nat.mul_zero]

theorem isDigit_zeros (count : Nat)
    : ∀ c ∈ List.replicate count (CodePoint.char '0'), c.isDigit := by
  intro c member
  rw [List.eq_of_mem_replicate member]
  rfl

/-- Each zero at the end multiplies by ten. -/
theorem toNat_append_zeros (digits : Text) (count : Nat)
    : toNat (digits ++ List.replicate count (.char '0')) = toNat digits * 10 ^ count := by
  rw [toNat_append digits (isDigit_zeros count), toNat_zeros, List.length_replicate,
    Nat.add_zero]

/-- Zeros in front of digits do not count. -/
theorem toNat_zeros_append {digits : Text} (h : ∀ c ∈ digits, CodePoint.isDigit c)
    (count : Nat)
    : toNat (List.replicate count (.char '0') ++ digits) = toNat digits := by
  rw [toNat_append _ h, toNat_zeros, Nat.zero_mul, Nat.zero_add]

/-- A number of some digits is less than the power of ten for them. -/
theorem toNat_lt_pow {digits : Text} (h : ∀ c ∈ digits, CodePoint.isDigit c)
    : toNat digits < 10 ^ digits.length := by
  induction digits with
  | nil => simp [toNat, Nat.ofDigitChars_nil]
  | cons c cs ih =>
      have first := h c (by simp)
      have others := ih fun d member => h d (by simp [member])
      cases c with
      | surrogate _ => cases first
      | char c =>
          have small : c.toNat - '0'.toNat ≤ 9 := by
            simp only [CodePoint.isDigit, Char.isDigit, Bool.and_eq_true, decide_eq_true_eq,
              UInt32.le_iff_toNat_le] at first
            have upper : c.toNat ≤ 57 := first.2
            have zero : '0'.toNat = 48 := rfl
            omega
          rw [toNat_cons fun d member => h d (by simp [member]), List.length_cons, Nat.pow_succ]
          nlinarith [Nat.mul_le_mul_right (10 ^ cs.length) small]

/-- A whole number of `n + 1` digits is at least `10 ^ n`, unless it is zero. -/
theorem pow_le_toNat {c : CodePoint} {cs : Text} (first : c.isDigit) (notZero : c ≠ .char '0')
    (others : ∀ d ∈ cs, CodePoint.isDigit d)
    : 10 ^ cs.length ≤ toNat (c :: cs) := by
  cases c with
  | surrogate _ => cases first
  | char c =>
      have positive : 1 ≤ c.toNat - '0'.toNat := by
        simp only [CodePoint.isDigit, Char.isDigit, Bool.and_eq_true, decide_eq_true_eq,
          UInt32.le_iff_toNat_le] at first
        have lower : '0'.toNat ≤ c.toNat := first.1
        have distinct : c.toNat ≠ '0'.toNat := fun eq => notZero (by rw [Char.toNat_inj.mp eq])
        omega
      rw [toNat_cons others]
      exact le_add_right (Nat.le_mul_of_pos_left _ positive)

-----------------------------------------------------------------------------------------
-- Numerals
-----------------------------------------------------------------------------------------

/-- The digits of a number spell it. -/
theorem toNat_ofNat (n : Nat) : toNat (ofNat n) = n := by
  have chars : (ofNat n).filterMap CodePoint.char? = Nat.toDigits 10 n := by
    simp [ofNat, List.filterMap_map, Function.comp_def, CodePoint.char?]
  rw [toNat, chars, Nat.ofDigitChars_ten_toDigits]

/-- A number is written in digits, and there are some. -/
theorem isDigits_ofNat (n : Nat) : IsDigits (ofNat n) := by
  refine ⟨by simp [ofNat, Nat.toDigits_ne_nil], ?_⟩
  intro c member
  obtain ⟨d, isDigit, rfl⟩ := List.mem_map.mp member
  exact Nat.isDigit_of_mem_toDigits (by decide) (by decide) isDigit

/-- A number has at most so many digits exactly when it is below the power of ten for them. -/
theorem length_ofNat_le_iff (n : Nat) {count : Nat} (positive : 0 < count)
    : (ofNat n).length ≤ count ↔ n < 10 ^ count := by
  rw [ofNat, List.length_map]
  exact Nat.length_toDigits_le_iff (by decide) positive

/-- An integer can be written if its numeral is not longer than those that are read. -/
theorem isWritable_iff (n : Int)
    : isWritable n ↔ (ofNat n.natAbs).length ≤ longest := by
  have positive : 0 < longest := by decide
  rw [length_ofNat_le_iff _ positive, isWritable, decide_eq_true_eq]
  generalize longest = limit
  rfl

/-- Numerals have no leading zeros: with one, the number would have fewer digits. -/
theorem whole_ofNat (n : Nat) : Whole (ofNat n) := by
  have value := toNat_ofNat n
  obtain ⟨notEmpty, all⟩ := isDigits_ofNat n
  cases digits : ofNat n with
  | nil => exact absurd digits notEmpty
  | cons c cs =>
      rw [digits] at value all
      have others : ∀ d ∈ cs, CodePoint.isDigit d := fun d member => all d (by simp [member])
      by_cases isZero : c = .char '0'
      · subst isZero
        rw [toNat_cons others, Nat.sub_self, Nat.zero_mul, Nat.zero_add] at value
        cases cs with
        | nil => exact .zero
        | cons d ds =>
            have less := toNat_lt_pow others
            rw [value] at less
            have short := (length_ofNat_le_iff n (by simp)).mpr less
            simp [digits] at short
      · exact .digits (all c (by simp)) isZero others

/-- A whole number has the fewest digits for its value, so it has as many as its numeral. -/
theorem length_ofNat_toNat {digits : Text} (h : Whole digits)
    : (ofNat (toNat digits)).length = digits.length := by
  obtain ⟨notEmpty, all⟩ := isDigits_of_whole h
  have fewest := (length_ofNat_le_iff _ (List.length_pos_iff.mpr notEmpty)).mpr (toNat_lt_pow all)
  refine Nat.le_antisymm fewest ?_
  have oneOrMore : 0 < (ofNat (toNat digits)).length :=
    List.length_pos_iff.mpr (isDigits_ofNat _).1
  cases h with
  | zero => exact oneOrMore
  | @digits c cs first notZero others =>
      by_contra fewer
      rw [List.length_cons, Nat.not_le, Nat.lt_succ_iff] at fewer
      have below := (length_ofNat_le_iff _ (oneOrMore.trans_le fewer)).mp fewer
      exact absurd (pow_le_toNat first notZero others) (Nat.not_le.mpr below)

end Numeral

end JsonPath
