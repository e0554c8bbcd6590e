import JsonPath.Number.Literal
import JsonPath.Proofs.Number.Numerals
import JsonPath.Proofs.Number.Rounding
import Mathlib.Data.List.TakeWhile

/-! Rendered numbers spell the numbers that they render: integers by their numerals, finite
floating point numbers by their shortest decimals.
-/

namespace JsonPath.Grammar

-----------------------------------------------------------------------------------------
-- Integers
-----------------------------------------------------------------------------------------

/-- The sign and the digits of the numeral of an integer. -/
theorem minus_ofInt (n : Int) (rest : Text)
    : Minus (Numeral.ofInt n ++ rest) (n < 0) (Numeral.ofNat n.natAbs ++ rest) := by
  cases n with
  | ofNat m =>
      have notNegative : decide (Int.ofNat m < 0) = false := by simp
      rw [notNegative]
      exact .absent
  | negSucc m =>
      have negative : decide (Int.negSucc m < 0) = true := by simp
      rw [negative]
      exact .present

/-- An integer is read from its sign and its digits. -/
theorem toInt_ofNat_natAbs (n : Int)
    : NumberLiteral.toInt (n < 0) (Numeral.ofNat n.natAbs) = n := by
  rw [NumberLiteral.toInt, Numeral.toNat_ofNat]
  split
  next negative =>
    have := of_decide_eq_true negative
    omega
  next notNegative =>
    have : ¬n < 0 := by simpa using notNegative
    omega

/-- An integer in range is written as the grammar spells it. -/
theorem integer_ofInt {n : Int} (inRange : n.natAbs ≤ maxInteger) (rest : Text)
    : Integer (Numeral.ofInt n ++ rest) n rest := by
  have notZero : decide (n < 0) → Numeral.ofNat n.natAbs ≠ [.char '0'] := by
    intro negative isZero
    have value := Numeral.toNat_ofNat n.natAbs
    have zero : Numeral.toNat [.char '0'] = 0 := rfl
    rw [isZero, zero] at value
    have := of_decide_eq_true negative
    omega
  have spelling := Integer.mk (minus_ofInt n rest) (Numeral.whole_ofNat n.natAbs) notZero
    ((Numeral.toNat_ofNat n.natAbs).symm ▸ inRange)
  rwa [toInt_ofNat_natAbs] at spelling

/-- The literal of an integer. -/
def integerLiteral (n : Int) : NumberLiteral :=
  ⟨n < 0, Numeral.ofNat n.natAbs, [], none⟩

/-- An integer is written as a number without a fraction and an exponent. -/
theorem numeric_ofInt (n : Int) (rest : Text)
    : Numeric (Numeral.ofInt n ++ rest) (integerLiteral n) rest :=
  .mk (minus_ofInt n rest) (Numeral.whole_ofNat n.natAbs) .absent .absent

/-- The literal of an integer has its value. -/
theorem value_integerLiteral (n : Int) : (integerLiteral n).value = .int n := by
  have isInt : (integerLiteral n).isInt := rfl
  rw [NumberLiteral.value, if_pos isInt]
  simp only [integerLiteral, toInt_ofNat_natAbs]

-----------------------------------------------------------------------------------------
-- Layouts of decimals
-----------------------------------------------------------------------------------------

/-- Without its sign, the literal has the value `significand * 10 ^ exponent`, possibly with
more zeros behind the significand, and it is no integer.
-/
structure HasValue (literal : NumberLiteral) (significand : Nat) (exponent : Int) : Prop where
  notInt : literal.isInt = false
  shifted
    : ∃ zeros : Nat,
      Numeral.toNat (literal.whole ++ literal.fraction) = significand * 10 ^ zeros
      ∧ literal.power - literal.fraction.length + zeros = exponent

/-- The exponent is spelled with its sign and at least two digits. -/
theorem exponent_exponentText (e : Int) (rest : Text)
    : ∃ negative digits,
      Exponent (.char 'e' :: Binary64.exponentText e ++ rest) (some (negative, digits)) rest
      ∧ NumberLiteral.toInt negative digits = e := by
  have padded
      : ∃ digits,
        digits = (if (Numeral.ofNat e.natAbs).length < 2
          then .char '0' :: Numeral.ofNat e.natAbs else Numeral.ofNat e.natAbs)
        ∧ IsDigits digits ∧ Numeral.toNat digits = e.natAbs := by
    obtain ⟨notEmpty, all⟩ := Numeral.isDigits_ofNat e.natAbs
    refine ⟨_, rfl, ?_⟩
    split
    next =>
      refine ⟨⟨by simp, ?_⟩, ?_⟩
      · intro c member
        rcases List.mem_cons.mp member with rfl | member
        · rfl
        · exact all c member
      · exact (Numeral.toNat_zeros_append all 1).trans (Numeral.toNat_ofNat _)
    next => exact ⟨⟨notEmpty, all⟩, Numeral.toNat_ofNat _⟩
  obtain ⟨digits, digits_eq, isDigits, value⟩ := padded
  by_cases negative : e < 0
  · refine ⟨true, digits, ?_, ?_⟩
    · have text_eq : Binary64.exponentText e = .char '-' :: digits := by
        rw [digits_eq, Binary64.exponentText, if_pos negative]
      rw [text_eq]
      exact .digits (.inl rfl) .minus isDigits
    · simp only [NumberLiteral.toInt, if_true, value]
      omega
  · refine ⟨false, digits, ?_, ?_⟩
    · have text_eq : Binary64.exponentText e = .char '+' :: digits := by
        rw [digits_eq, Binary64.exponentText, if_neg negative]
      rw [text_eq]
      exact .digits (.inl rfl) .plus isDigits
    · simp only [NumberLiteral.toInt, value, Bool.false_eq_true, if_false]
      omega

/-- In front of any text, the text spells a number without sign that has the value. -/
def Spells (t : Text) (significand : Nat) (exponent : Int) : Prop :=
  ∀ rest,
    ∃ literal,
      literal.negative = false
      ∧ Numeric (t ++ rest) literal rest
      ∧ HasValue literal significand exponent

section Layout

variable {c : CodePoint} {cs : Text} (first : c.isDigit) (notZero : c ≠ .char '0')
  (others : ∀ d ∈ cs, CodePoint.isDigit d)

include first notZero others

/-- The point stands among the digits. -/
theorem spells_pointInside {point : Nat} (inside : point < cs.length)
    : Spells (c :: cs.take point ++ .char '.' :: cs.drop point) (Numeral.toNat (c :: cs))
        (point - cs.length) := by
  intro rest
  have whole : Whole (c :: cs.take point) :=
    .digits first notZero fun d member => others d (List.mem_of_mem_take member)
  have fraction : IsDigits (cs.drop point) :=
    ⟨by simpa using inside, fun d member => others d (List.mem_of_mem_drop member)⟩
  refine ⟨⟨false, c :: cs.take point, cs.drop point, none⟩, rfl, ?_, ?_, 0, ?_, ?_⟩
  · rw [List.append_assoc]
    exact .mk .absent whole (.digits fraction) .absent
  · simp [NumberLiteral.isInt, inside]
  · simp [List.take_append_drop]
  · simp only [NumberLiteral.power, List.length_drop]
    omega

/-- The point stands behind the digits and further zeros. -/
theorem spells_pointBehind (zeros : Nat)
    : Spells (c :: cs ++ List.replicate zeros (.char '0') ++ [.char '.', .char '0'])
        (Numeral.toNat (c :: cs)) zeros := by
  intro rest
  have whole : Whole (c :: (cs ++ List.replicate zeros (.char '0'))) := by
    refine .digits first notZero fun d member => ?_
    rcases List.mem_append.mp member with member | member
    · exact others d member
    · exact Numeral.isDigit_zeros zeros d member
  have fraction : IsDigits [.char '0'] := ⟨by simp, by decide⟩
  refine ⟨⟨false, c :: (cs ++ List.replicate zeros (.char '0')), [.char '0'], none⟩, rfl, ?_, ?_,
    zeros + 1, ?_, ?_⟩
  · rw [List.append_assoc]
    exact .mk .absent whole (.digits fraction) .absent
  · rfl
  · rw [← List.cons_append, List.append_assoc, ← List.replicate_succ',
      Numeral.toNat_append_zeros]
  · simp only [NumberLiteral.power, List.length_singleton]
    omega

omit notZero in
/-- The point stands in front of the digits, possibly with zeros between. -/
theorem spells_pointBefore (zeros : Nat)
    : Spells (.char '0' :: .char '.' :: (List.replicate zeros (.char '0') ++ c :: cs))
        (Numeral.toNat (c :: cs)) (-zeros - 1 - cs.length) := by
  intro rest
  have all : ∀ d ∈ c :: cs, CodePoint.isDigit d := by
    simpa [first] using others
  have fraction : IsDigits (List.replicate zeros (.char '0') ++ c :: cs) := by
    refine ⟨by simp, fun d member => ?_⟩
    rcases List.mem_append.mp member with member | member
    · exact Numeral.isDigit_zeros zeros d member
    · exact all d member
  refine ⟨⟨false, [.char '0'], List.replicate zeros (.char '0') ++ c :: cs, none⟩, rfl, ?_, ?_,
    0, ?_, ?_⟩
  · have whole : Whole [.char '0'] := .zero
    exact .mk .absent whole (.digits fraction) .absent
  · simp [NumberLiteral.isInt]
  · have front : [CodePoint.char '0'] ++ (List.replicate zeros (.char '0') ++ c :: cs)
        = List.replicate (zeros + 1) (.char '0') ++ c :: cs := by
      simp [List.replicate_succ]
    rw [front, Numeral.toNat_zeros_append all, Nat.pow_zero, Nat.mul_one]
  · simp only [NumberLiteral.power, List.length_append, List.length_replicate, List.length_cons]
    omega

omit others in
/-- The first digit stands in front of the point, if there is one, with an exponent. -/
theorem spells_scientific {front : Text} (fraction : ∀ rest, Fraction (front ++ rest) cs rest)
    (leading : Int)
    : Spells (c :: front ++ .char 'e' :: Binary64.exponentText leading)
        (Numeral.toNat (c :: cs)) (leading - cs.length) := by
  intro rest
  obtain ⟨negative, digits, spelling, value⟩ := exponent_exponentText leading rest
  have whole : Whole [c] := .digits first notZero (by simp)
  refine ⟨⟨false, [c], cs, some (negative, digits)⟩, rfl, ?_, ?_, 0, ?_, ?_⟩
  · rw [List.append_assoc]
    exact .mk .absent whole (fraction _) spelling
  · simp [NumberLiteral.isInt]
  · simp
  · simp only [NumberLiteral.power, value]
    omega

/-- Every layout of digits spells a number with their value. -/
theorem spells_layout (leading : Int)
    : Spells (Binary64.layout (c :: cs) leading) (Numeral.toNat (c :: cs))
        (leading - cs.length) := by
  unfold Binary64.layout
  split
  next positional =>
    cases leading with
    | ofNat e =>
        rcases Nat.lt_or_ge e cs.length with inside | behind
        · have noZeros : e + 1 - (c :: cs).length = 0 := by simp; omega
          have notEmpty : (cs.drop e).isEmpty = false := by simpa using inside
          simp only [noZeros, notEmpty, List.take_succ_cons, List.drop_succ_cons,
            List.replicate_zero, List.append_nil, Bool.false_eq_true, if_false]
          exact spells_pointInside first notZero others inside
        · have isEmpty : (c :: cs).drop (e + 1) = [] := by simpa using behind
          have all : (c :: cs).take (e + 1) = c :: cs :=
            List.take_of_length_le (by simpa using behind)
          have zeros : ((e + 1 - (c :: cs).length : Nat) : Int) = Int.ofNat e - cs.length := by
            simp
            omega
          simp only [isEmpty, all, ← zeros]
          exact spells_pointBehind first notZero others _
    | negSucc e =>
        have exponent : Int.negSucc e - cs.length = -e - 1 - cs.length := by omega
        rw [exponent]
        exact spells_pointBefore first others e
  next =>
    cases cs with
    | nil =>
        have fraction : ∀ rest : Text, Fraction ([] ++ rest) [] rest := fun _ => .absent
        exact spells_scientific first notZero fraction leading
    | cons d ds =>
        have fraction : ∀ rest, Fraction (.char '.' :: d :: ds ++ rest) (d :: ds) rest :=
          fun _ => .digits ⟨by simp, others⟩
        exact spells_scientific first notZero fraction leading

end Layout

-----------------------------------------------------------------------------------------
-- Floating point numbers
-----------------------------------------------------------------------------------------

/-- Digits are their beginning without trailing zeros and those zeros. -/
theorem dropTrailingZeros_append (digits : Text)
    : ∃ zeros,
      digits = Binary64.dropTrailingZeros digits ++ List.replicate zeros (.char '0') := by
  refine ⟨(digits.reverse.takeWhile (· = .char '0')).length, ?_⟩
  have zeros : digits.reverse.takeWhile (· = .char '0')
      = List.replicate (digits.reverse.takeWhile (· = .char '0')).length (.char '0') :=
    List.eq_replicate_iff.mpr
      ⟨rfl, fun c member => by simpa using List.mem_takeWhile_imp member⟩
  have parts := List.takeWhile_append_dropWhile (p := (· = CodePoint.char '0'))
    (l := digits.reverse)
  have reversed := congrArg List.reverse parts
  rw [List.reverse_append, List.reverse_reverse, zeros, List.reverse_replicate] at reversed
  exact reversed.symm

/-- A positive number with the digits of its numeral up to the trailing zeros. -/
theorem digits_ofNat {n : Nat} (positive : n ≠ 0)
    : ∃ c cs zeros,
      Binary64.dropTrailingZeros (Numeral.ofNat n) = c :: cs
      ∧ c.isDigit
      ∧ c ≠ .char '0'
      ∧ (∀ d ∈ cs, CodePoint.isDigit d)
      ∧ (Numeral.ofNat n).length = cs.length + 1 + zeros
      ∧ Numeral.toNat (c :: cs) * 10 ^ zeros = n := by
  obtain ⟨zeros, split⟩ := dropTrailingZeros_append (Numeral.ofNat n)
  have value := Numeral.toNat_ofNat n
  rw [split, Numeral.toNat_append_zeros] at value
  have length := congrArg List.length split
  rw [List.length_append, List.length_replicate] at length
  have whole := Numeral.whole_ofNat n
  cases front : Binary64.dropTrailingZeros (Numeral.ofNat n) with
  | nil =>
      rw [front] at value
      exact absurd value.symm (by simpa [Numeral.toNat, Nat.ofDigitChars_nil] using positive)
  | cons c cs =>
      rw [front] at value length split
      rw [split] at whole
      have all := (isDigits_of_whole whole).2
      refine ⟨c, cs, zeros, rfl, all c (by simp), ?_, fun d member => all d (by simp [member]),
        by simpa using length, value⟩
      rintro rfl
      rw [List.cons_append] at whole
      cases tail : cs ++ List.replicate zeros (CodePoint.char '0') with
      | nil =>
          obtain ⟨rfl, -⟩ := List.append_eq_nil_iff.mp tail
          exact positive (value.symm.trans (Nat.zero_mul _))
      | cons d ds =>
          rw [tail] at whole
          cases whole with
          | digits _ notZero _ => exact notZero rfl

/-- A minus in front of a number without one spells the negated number. -/
theorem numeric_negate {t rest whole fraction : Text} {exponent : Option (Bool × Text)}
    (h : Numeric t ⟨false, whole, fraction, exponent⟩ rest)
    : Numeric (.char '-' :: t) ⟨true, whole, fraction, exponent⟩ rest := by
  obtain ⟨sign, isWhole, hasFraction, hasExponent⟩ := h
  cases sign with
  | absent => exact .mk .present isWhole hasFraction hasExponent

/-- Reading a literal with the value of a decimal that reads back gives the number of the
decimal.
-/
theorem value_of_hasValue {literal : NumberLiteral} {significand : Nat} {exponent : Int}
    (h : HasValue literal significand exponent) {x : Binary64}
    (sign : literal.negative = x.negative)
    (readsBack : Binary64.readsBack x.index.val ⟨significand, exponent⟩)
    : literal.value = .float x := by
  obtain ⟨notInt, zeros, digits, scale⟩ := h
  have index : min (Binary64.decimalIndex significand exponent) Binary64.infinityIndex
      = x.index.val := of_decide_eq_true readsBack
  have value : literal.toBinary64 = x := by
    rw [NumberLiteral.toBinary64, Binary64.ofDecimal, Binary64.ofIndex, sign, digits]
    have same := Binary64.min_decimalIndex_shift significand zeros
      (literal.power - literal.fraction.length)
    rw [scale, index] at same
    simp only [same]
  rw [NumberLiteral.value, notInt, value]
  rfl

/-- The magnitude of a finite float is written as a decimal that is read back. -/
theorem spells_magnitudeText {index : Nat} (finite : index < Binary64.infinityIndex)
    : ∃ significand exponent,
      Spells (Binary64.magnitudeText index) significand exponent
      ∧ Binary64.readsBack index ⟨significand, exponent⟩ := by
  unfold Binary64.magnitudeText
  rw [if_neg finite.ne]
  split
  next isZero =>
    subst isZero
    refine ⟨0, 0, fun rest => ?_, by decide⟩
    have whole : Whole [.char '0'] := .zero
    have fraction : IsDigits [.char '0'] := ⟨by simp, by decide⟩
    exact ⟨⟨false, [.char '0'], [.char '0'], none⟩, rfl,
      .mk .absent whole (.digits fraction) .absent, rfl, 1, rfl, rfl⟩
  next notZero =>
    have readsBack := Binary64.readsBack_shortest finite.le
    generalize Binary64.shortest index = d at readsBack
    obtain ⟨significand, exponent⟩ := d
    have positive : significand ≠ 0 := by
      rintro rfl
      have zero : 0 = index := by
        simpa [Binary64.readsBack, Binary64.decimalIndex] using readsBack
      exact notZero zero.symm
    obtain ⟨c, cs, zeros, front, first, firstNotZero, others, length, value⟩ :=
      digits_ofNat positive
    refine ⟨Numeral.toNat (c :: cs), exponent + zeros, ?_, ?_⟩
    · have leading : exponent + (((Numeral.ofNat significand).length - 1 : Nat) : Int) - cs.length
          = exponent + zeros := by omega
      have spelled := spells_layout first firstNotZero others
        (exponent + ((Numeral.ofNat significand).length - 1 : Nat))
      rw [leading] at spelled
      simpa only [front] using spelled
    · rw [Binary64.readsBack, ← Binary64.min_decimalIndex_shift, value]
      exact readsBack

/-- The text of a finite floating point number is a literal of this number. -/
theorem numeric_text {x : Binary64} (finite : x.isInfinite = false) (rest : Text)
    : ∃ literal, Numeric (x.text ++ rest) literal rest ∧ literal.value = .float x := by
  have below : x.index.val < Binary64.infinityIndex := by
    have notLast : x.index.val ≠ Binary64.infinityIndex := by
      simpa [Binary64.isInfinite] using finite
    omega
  obtain ⟨significand, exponent, spells, readsBack⟩ := spells_magnitudeText below
  obtain ⟨⟨negative, whole, fraction, power⟩, unsigned, spelling, value⟩ := spells rest
  obtain rfl : negative = false := unsigned
  unfold Binary64.text
  split
  next isNegative =>
    have negated : HasValue ⟨true, whole, fraction, power⟩ significand exponent :=
      ⟨value.notInt, value.shifted⟩
    exact ⟨_, numeric_negate spelling,
      value_of_hasValue negated isNegative.symm readsBack⟩
  next notNegative =>
    exact ⟨_, spelling,
      value_of_hasValue value (by simpa using notNegative) readsBack⟩

end JsonPath.Grammar
