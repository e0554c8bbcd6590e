import JsonPath.Text.Numeral
import Mathlib.Algebra.Group.Nat.Defs
import Mathlib.Logic.Function.Basic

/-! The numbers of code points, and hexadecimal numerals, which read back as the numbers they
are made from.
-/

namespace JsonPath

namespace CodePoint

/-- Scalar values and lone surrogates have different numbers. -/
theorem toNat_injective : Function.Injective toNat := by
  intro c d same
  cases c with
  | char c =>
      cases d with
      | char d => rw [Char.toNat_inj.mp same]
      | surrogate offset =>
          have valid := c.valid
          simp only [toNat, UInt32.isValidChar, Nat.isValidChar, Char.toNat] at same valid
          omega
  | surrogate offset =>
      cases d with
      | char d =>
          have valid := d.valid
          simp only [toNat, UInt32.isValidChar, Nat.isValidChar, Char.toNat] at same valid
          omega
      | surrogate offset' =>
          have same : offset.val = offset'.val := Nat.add_left_cancel same
          rw [Fin.ext same]

/-- Code points are below the limit. -/
theorem toNat_lt_limit (c : CodePoint) : c.toNat < limit := by
  cases c with
  | char c =>
      have valid := c.valid
      simp only [toNat, limit, UInt32.isValidChar, Nat.isValidChar, Char.toNat] at valid ⊢
      omega
  | surrogate offset =>
      simp only [toNat, limit]
      omega

/-- Hexadecimal digits are read as their numbers. -/
theorem hexDigit?_digitChar
    : ∀ digit < 16, (char (Nat.digitChar digit)).hexDigit? = some digit := by
  decide

/-- A hexadecimal digit is less than sixteen. -/
theorem hexDigit?_lt {c : CodePoint} {digit : Nat} (h : c.hexDigit? = some digit)
    : digit < 16 := by
  cases c with
  | char c =>
      rw [hexDigit?] at h
      split at h
      next range =>
        obtain rfl := Option.some.inj h
        have high : c.toNat ≤ '9'.toNat := range.2
        have digit : c.toNat - '0'.toNat ≤ 9 := Nat.sub_le_sub_right high '0'.toNat
        omega
      split at h
      next range =>
        obtain rfl := Option.some.inj h
        have high : c.toNat ≤ 'f'.toNat := range.2
        have digit : c.toNat - 'a'.toNat ≤ 5 := Nat.sub_le_sub_right high 'a'.toNat
        omega
      split at h
      next range =>
        obtain rfl := Option.some.inj h
        have high : c.toNat ≤ 'F'.toNat := range.2
        have digit : c.toNat - 'A'.toNat ≤ 5 := Nat.sub_le_sub_right high 'A'.toNat
        omega
      next => cases h
  | surrogate _ => cases h

end CodePoint

namespace Numeral

/-- Digits behind those of a number multiply it by sixteen each. -/
theorem of_foldlM_hexDigit? {digits : Text} {total n : Nat}
    (h : digits.foldlM (fun total c => c.hexDigit?.map (total * 16 + ·)) total = some n)
    : (∀ c ∈ digits, c.hexDigit?.isSome) ∧ n < (total + 1) * 16 ^ digits.length := by
  induction digits generalizing total with
  | nil =>
      obtain rfl := Option.some.inj h
      simp
  | cons c digits ih =>
      obtain ⟨next, added, h⟩ := Option.bind_eq_some_iff.mp h
      obtain ⟨digit, isDigit, rfl⟩ := Option.map_eq_some_iff.mp added
      obtain ⟨areDigits, bound⟩ := ih h
      refine ⟨List.forall_mem_cons.mpr ⟨Option.isSome_of_mem isDigit, areDigits⟩, ?_⟩
      have small : digit < 16 := CodePoint.hexDigit?_lt isDigit
      calc n < (total * 16 + digit + 1) * 16 ^ digits.length := bound
        _ ≤ (total + 1) * 16 * 16 ^ digits.length := Nat.mul_le_mul_right _ (by omega)
        _ = (total + 1) * 16 ^ (digits.length + 1) := by rw [Nat.mul_assoc, Nat.pow_succ']

/-- A hexadecimal number has digits only and is less than the power for them. -/
theorem of_hexToNat?_eq_some {digits : Text} {n : Nat} (h : hexToNat? digits = some n)
    : (∀ c ∈ digits, c.hexDigit?.isSome) ∧ n < 16 ^ digits.length := by
  obtain ⟨areDigits, bound⟩ := of_foldlM_hexDigit? h
  exact ⟨areDigits, by omega⟩

theorem length_hex (width n : Nat) : (hex width n).length = width := by
  induction width generalizing n with
  | zero => rfl
  | succ width ih => rw [hex, List.length_append, ih, List.length_singleton]

/-- A number that fits the width is read back from its digits. -/
theorem hexToNat?_hex {width n : Nat} (fits : n < 16 ^ width)
    : hexToNat? (hex width n) = some n := by
  induction width generalizing n with
  | zero =>
      obtain rfl : n = 0 := by omega
      rfl
  | succ width ih =>
      have high : n / 16 < 16 ^ width := Nat.div_lt_of_lt_mul (by rwa [Nat.pow_succ'] at fits)
      have low := CodePoint.hexDigit?_digitChar (n % 16) (Nat.mod_lt n (by decide))
      have front : List.foldlM _ 0 (hex width (n / 16)) = some (n / 16) := ih high
      rw [hexToNat?, hex, List.foldlM_append, front]
      simp [low, Nat.div_add_mod']

end Numeral

end JsonPath
