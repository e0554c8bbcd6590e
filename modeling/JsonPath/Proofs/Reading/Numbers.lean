import JsonPath.Proofs.Grammar.Literals
import JsonPath.Proofs.Number.Numerals
import JsonPath.Proofs.Reading.Basic

/-! Integers and numbers are read exactly as they are spelled, as far as they reach. -/

namespace JsonPath.Syntax

open Grammar Outcome NumberLiteral

/-- The ASCII digits are among the digits of all scripts. -/
theorem isNumericDigit_of_isDigit {c : CodePoint} (h : c.isDigit) : c.isNumericDigit := by
  cases c with
  | surrogate _ => cases h
  | char d =>
      have below : d.toNat < 0x80 := by
        simp only [CodePoint.isDigit, Char.isDigit, Bool.and_eq_true, decide_eq_true_eq,
          UInt32.le_iff_toNat_le] at h
        exact lt_of_le_of_lt h.2 (by decide)
      simpa [CodePoint.isNumericDigit, CodePoint.toNat, below] using h

/-- What a number could go on with: digits of any script, a point or an exponent letter. -/
def isNumberPart (c : CodePoint) : Bool :=
  c.isNumericDigit || c = .char '.' || c = .char 'e' || c = .char 'E'

/-- Avoiding a class is avoiding each smaller one. -/
theorem Avoids.mono {p q : CodePoint → Bool} {t : Text} (h : Avoids p t)
    (weaker : ∀ c, q c → p c)
    : Avoids q t := by
  intro c rest eq
  by_contra holds
  simpa [weaker c (by simpa using holds)] using h c rest eq

theorem startsWithDigit_eq_false {t : Text} (h : Avoids CodePoint.isNumericDigit t)
    : startsWithDigit t = false := by
  cases t with
  | nil => rfl
  | cons c rest => exact h c rest rfl

-----------------------------------------------------------------------------------------
-- Integers
-----------------------------------------------------------------------------------------

/-- Integers of the allowed range have few digits. -/
theorem length_le_of_toNat_le {digits : Text} (whole : Whole digits)
    (inRange : Numeral.toNat digits ≤ maxInteger)
    : digits.length ≤ 16 := by
  cases whole with
  | zero => simp
  | @digits c cs first notZero others =>
      have lower := Numeral.pow_le_toNat first notZero others
      by_contra long
      have power : 10 ^ 16 ≤ 10 ^ cs.length :=
        Nat.pow_le_pow_right (by omega) (by simp at long; omega)
      have greatest : maxInteger < 10 ^ 16 := by decide
      omega

/-- The integer part that is scanned has no leading zeros and is in front of the rest. -/
theorem scanWhole?_sound {t digits rest : Text} (h : scanWhole? t = some (digits, rest))
    : Whole digits ∧ t = digits ++ rest := by
  unfold scanWhole? at h
  split at h
  next after =>
    obtain ⟨rfl, rfl⟩ := Prod.mk.inj (Option.some.inj h)
    exact ⟨.zero, rfl⟩
  next notZero =>
    split at h
    next found after spanned =>
      split at h
      next => cases h
      next notEmpty =>
        obtain ⟨rfl, rfl⟩ := Prod.mk.inj (Option.some.inj h)
        obtain ⟨rfl, all⟩ := of_span_eq spanned
        cases found with
        | nil => simp at notEmpty
        | cons c cs =>
            refine ⟨.digits (all c (by simp)) ?_ (fun d member => all d (by simp [member])), rfl⟩
            rintro rfl
            exact notZero _ rfl

/-- An integer part is scanned as a whole where no digit follows it. -/
theorem scanWhole?_complete {digits rest : Text} (whole : Whole digits)
    (ends : Avoids CodePoint.isDigit rest)
    : scanWhole? (digits ++ rest) = some (digits, rest) := by
  have spanned := span_append (isDigits_of_whole whole).2 ends
  cases whole with
  | zero => rfl
  | digits first notZero others =>
      unfold scanWhole?
      split
      next eq => exact absurd (List.cons.inj eq).1 notZero
      next => rw [spanned]; rfl

/-- The sign that is scanned is spelled in front of the rest. -/
theorem scanMinus_sound {t unsigned : Text} {negative : Bool}
    (h : scanMinus t = (negative, unsigned))
    : Minus t negative unsigned := by
  unfold scanMinus at h
  split at h
  all_goals obtain ⟨rfl, rfl⟩ := Prod.mk.inj h
  · exact .present
  · exact .absent

/-- A minus is scanned exactly when the number is spelled with one. -/
theorem scanMinus_complete {t digits rest : Text} {negative : Bool}
    (h : Minus t negative (digits ++ rest)) (whole : Whole digits)
    : scanMinus t = (negative, digits ++ rest) := by
  cases h with
  | present => rfl
  | absent =>
      cases whole with
      | zero => rfl
      | digits first _ _ =>
          unfold scanMinus
          split
          next eq =>
            obtain ⟨rfl, -⟩ := List.cons.inj eq
            simp [CodePoint.isDigit, Char.isDigit] at first
          next => rfl

/-- The sign does not change the absolute value of the digits. -/
theorem natAbs_toInt (negative : Bool) (digits : Text)
    : (NumberLiteral.toInt negative digits).natAbs = Numeral.toNat digits := by
  cases negative <;> simp [NumberLiteral.toInt]

/-- An integer that is read is spelled in the text. -/
theorem integer_sound {t rest : Text} {n : Int} (h : integer t = .ok (n, rest))
    : Integer t n rest := by
  unfold integer at h
  split at h
  next negative unsigned sign =>
    split at h
    next => simp [fail] at h
    next digits after scanned =>
      obtain ⟨whole, rfl⟩ := scanWhole?_sound scanned
      dsimp only at h
      split at h
      next => simp [fail] at h
      split at h
      next => simp [fail] at h
      next notZero =>
        split at h
        next => simp [fail] at h
        split at h
        next => simp [fail] at h
        next inRange =>
          obtain ⟨rfl, rfl⟩ := Prod.mk.inj (Except.ok.inj h)
          rw [natAbs_toInt] at inRange
          exact .mk (scanMinus_sound sign) whole (fun isNegative eq => notZero ⟨isNegative, eq⟩)
            (Nat.le_of_not_lt inRange)

/-- An integer is read as it is spelled where no digit follows it. -/
theorem integer_complete {t rest : Text} {n : Int} (h : Integer t n rest)
    (ends : Avoids CodePoint.isNumericDigit rest)
    : integer t = .ok (n, rest) := by
  obtain ⟨sign, whole, notZero, inRange⟩ := h
  rename_i negative digits
  have noDigit : Avoids CodePoint.isDigit rest := ends.mono fun _ => isNumericDigit_of_isDigit
  have short : ¬Numeral.longest < digits.length := by
    have := length_le_of_toNat_le whole inRange
    simp only [Numeral.longest]
    omega
  have notZero : ¬(negative = true ∧ digits = ("0" : Text)) := fun h => notZero h.1 h.2
  simp only [integer, scanMinus_complete sign whole, scanWhole?_complete whole noDigit,
    startsWithDigit_eq_false ends, if_neg notZero, if_neg short, natAbs_toInt,
    if_neg (Nat.not_lt.mpr inRange)]
  rfl

-----------------------------------------------------------------------------------------
-- Numbers
-----------------------------------------------------------------------------------------

theorem scanFraction_sound {t fraction rest : Text} (h : scanFraction t = (fraction, rest))
    : Fraction t fraction rest := by
  unfold scanFraction at h
  split at h
  next after =>
    split at h
    next digits end_ spanned =>
      obtain ⟨rfl, all⟩ := of_span_eq spanned
      split at h
      next =>
        obtain ⟨rfl, rfl⟩ := Prod.mk.inj h
        exact .absent
      next notEmpty =>
        obtain ⟨rfl, rfl⟩ := Prod.mk.inj h
        exact .digits ⟨by simpa using notEmpty, all⟩
  next =>
    obtain ⟨rfl, rfl⟩ := Prod.mk.inj h
    exact .absent

/-- A fraction is scanned as it is spelled where neither a digit nor a point follows. -/
theorem scanFraction_complete {t fraction rest : Text} (h : Fraction t fraction rest)
    (noDigit : Avoids CodePoint.isDigit rest) (noPoint : Avoids (· = .char '.') rest)
    : scanFraction t = (fraction, rest) := by
  cases h with
  | absent =>
      unfold scanFraction
      split
      next after => simpa using noPoint _ _ rfl
      next => rfl
  | digits isDigits =>
      have spanned := span_append isDigits.2 noDigit
      have notEmpty : fraction.isEmpty = false := by simpa using isDigits.1
      simp [scanFraction, -List.span_eq_takeWhile_dropWhile, spanned, notEmpty]

theorem scanSign_sound {t after : Text} {negative : Bool} (h : scanSign t = (negative, after))
    : ∃ sign, ExponentSign sign negative ∧ t = sign ++ after := by
  unfold scanSign at h
  split at h
  all_goals obtain ⟨rfl, rfl⟩ := Prod.mk.inj h
  · exact ⟨_, .minus, rfl⟩
  · exact ⟨_, .plus, rfl⟩
  · exact ⟨_, .absent, rfl⟩

/-- The sign of an exponent is scanned in front of its digits. -/
theorem scanSign_complete {sign digits : Text} {negative : Bool}
    (h : ExponentSign sign negative) (isDigits : IsDigits digits) (rest : Text)
    : scanSign (sign ++ digits ++ rest) = (negative, digits ++ rest) := by
  cases h with
  | plus => rfl
  | minus => rfl
  | absent =>
      obtain ⟨notEmpty, all⟩ := isDigits
      cases digits with
      | nil => exact absurd rfl notEmpty
      | cons c cs =>
          have isDigit := all c (by simp)
          unfold scanSign
          split
          next eq =>
            obtain ⟨rfl, -⟩ := List.cons.inj eq
            simp [CodePoint.isDigit, Char.isDigit] at isDigit
          next eq =>
            obtain ⟨rfl, -⟩ := List.cons.inj eq
            simp [CodePoint.isDigit, Char.isDigit] at isDigit
          next => rfl

theorem scanExponent_sound {t rest : Text} {exponent : Option (Bool × Text)}
    (h : scanExponent t = (exponent, rest))
    : Exponent t exponent rest := by
  unfold scanExponent at h
  split at h
  next c after =>
    split at h
    next isLetter =>
      split at h
      next negative unsigned sign =>
        obtain ⟨signText, hasSign, rfl⟩ := scanSign_sound sign
        split at h
        next digits end_ spanned =>
          obtain ⟨rfl, all⟩ := of_span_eq spanned
          split at h
          all_goals obtain ⟨rfl, rfl⟩ := Prod.mk.inj h
          next => exact .absent
          next notEmpty =>
            rw [← List.append_assoc]
            exact .digits (by simpa using isLetter) hasSign ⟨by simpa using notEmpty, all⟩
    next =>
      obtain ⟨rfl, rfl⟩ := Prod.mk.inj h
      exact .absent
  next =>
    obtain ⟨rfl, rfl⟩ := Prod.mk.inj h
    exact .absent

/-- An exponent is scanned as it is spelled where the number ends. -/
theorem scanExponent_complete {t rest : Text} {exponent : Option (Bool × Text)}
    (h : Exponent t exponent rest) (ends : Avoids isNumberPart rest)
    : scanExponent t = (exponent, rest) := by
  have noDigit : Avoids CodePoint.isDigit rest :=
    ends.mono fun c isDigit => by simp [isNumberPart, isNumericDigit_of_isDigit isDigit]
  cases h with
  | absent =>
      unfold scanExponent
      split
      next c after =>
        have stop : isNumberPart (.char c) = false := ends _ _ rfl
        simp only [isNumberPart, Bool.or_eq_false_iff, decide_eq_false_iff_not,
          CodePoint.char.injEq] at stop
        simp [stop]
      next => rfl
  | @digits letter sign negative digits _ isLetter hasSign isDigits =>
      have signed := scanSign_complete hasSign isDigits rest
      have spanned := span_append isDigits.2 noDigit
      have notEmpty : digits.isEmpty = false := by simpa using isDigits.1
      rcases isLetter with rfl | rfl <;>
        simp [scanExponent, -List.span_eq_takeWhile_dropWhile, -List.append_assoc, signed,
          spanned, notEmpty]

/-- The number that is scanned is spelled in front of the rest, part by part. -/
theorem scan?_sound {t rest : Text} {literal : NumberLiteral}
    (h : scan? t = some (literal, rest))
    : Numeric t literal rest := by
  unfold scan? at h
  split at h
  next negative unsigned sign =>
    split at h
    next => cases h
    next whole afterWhole scanned =>
      obtain ⟨isWhole, rfl⟩ := scanWhole?_sound scanned
      split at h
      next fraction afterFraction hasFraction =>
        split at h
        next exponent end_ hasExponent =>
          obtain ⟨rfl, rfl⟩ := Prod.mk.inj (Option.some.inj h)
          exact .mk (scanMinus_sound sign) isWhole (scanFraction_sound hasFraction)
            (scanExponent_sound hasExponent)

/-- An exponent stands where neither a digit nor a point could go on. -/
theorem avoids_of_exponent {t rest : Text} {exponent : Option (Bool × Text)}
    {p : CodePoint → Bool} (h : Exponent t exponent rest) (ends : Avoids p rest)
    (letters : p (.char 'e') = false ∧ p (.char 'E') = false)
    : Avoids p t := by
  cases h with
  | absent => exact ends
  | digits isLetter _ _ =>
      rintro c after eq
      obtain ⟨rfl, -⟩ := List.cons.inj eq
      rcases isLetter with rfl | rfl
      · exact letters.1
      · exact letters.2

/-- What follows a fraction is avoided in front of it as well, unless it is a point. -/
theorem avoids_of_fraction {t fraction rest : Text} {p : CodePoint → Bool}
    (h : Fraction t fraction rest) (ends : Avoids p rest) (point : p (.char '.') = false)
    : Avoids p t := by
  cases h with
  | absent => exact ends
  | digits _ =>
      rintro c after eq
      obtain ⟨rfl, -⟩ := List.cons.inj eq
      exact point

/-- A number is scanned as it is spelled where it ends, part by part. -/
theorem scan?_complete {t rest : Text} {literal : NumberLiteral}
    (h : Numeric t literal rest) (ends : Avoids isNumberPart rest)
    : scan? t = some (literal, rest) := by
  obtain ⟨sign, isWhole, hasFraction, hasExponent⟩ := h
  have noDigit := avoids_of_exponent hasExponent (p := CodePoint.isDigit)
    (ends.mono fun c isDigit => by simp [isNumberPart, isNumericDigit_of_isDigit isDigit])
    (by decide)
  have noPoint := avoids_of_exponent hasExponent (p := (· = .char '.'))
    (ends.mono fun c isPoint => by simp_all [isNumberPart]) (by decide)
  have noDigitBefore := avoids_of_fraction hasFraction noDigit (by decide)
  simp only [scan?, scanMinus_complete sign isWhole, scanWhole?_complete isWhole noDigitBefore,
    scanFraction_complete hasFraction noDigit noPoint, scanExponent_complete hasExponent ends]

/-- The integer part of a number has no leading zeros. -/
theorem whole_of_numeric {t rest : Text} {literal : NumberLiteral} (h : Numeric t literal rest)
    : Whole literal.whole := by
  obtain ⟨_, isWhole, _, _⟩ := h
  exact isWhole

/-- The value of an integer literal can be written exactly if the literal can be read: it has
no leading zeros.
-/
theorem isWritable_value_iff {literal : NumberLiteral} (isWhole : Whole literal.whole)
    (isInt : literal.isInt)
    : (Value.number literal.value).isWritable ↔ literal.whole.length ≤ Numeral.longest := by
  have value : literal.value = .int (toInt literal.negative literal.whole) := by
    rw [NumberLiteral.value, if_pos isInt]
  rw [value, Value.isWritable, Numeral.isWritable_iff, natAbs_toInt,
    Numeral.length_ofNat_toNat isWhole]

/-- A number is read unless it is an integer of too many digits. -/
theorem number_of_numeric {t rest : Text} {literal : NumberLiteral}
    (h : Numeric t literal rest)
    : literal.number
      = if (Value.number literal.value).isWritable then .ok literal.value
        else .error literal.whole.length := by
  cases isInt : literal.isInt with
  | false =>
      have value : literal.value = .float literal.toBinary64 := by
        rw [NumberLiteral.value, if_neg (by simp [isInt])]
      have short : (Value.number (.float literal.toBinary64)).isWritable := rfl
      rw [NumberLiteral.number, if_neg (by simp [isInt]), value, if_pos short]
  | true =>
      have short := isWritable_value_iff (whole_of_numeric h) isInt
      by_cases long : Numeral.longest < literal.whole.length
      · rw [NumberLiteral.number, if_pos ⟨isInt, long⟩,
          if_neg (mt short.mp (Nat.not_le.mpr long))]
      · rw [NumberLiteral.number, if_neg (fun tooLong => long tooLong.2),
          if_pos (short.mpr (Nat.not_lt.mp long))]

/-- A literal that is too long is an integer with more digits than can be read. -/
theorem longest_lt_of_not_isWritable {t rest : Text} {literal : NumberLiteral}
    (h : Numeric t literal rest) (long : (Value.number literal.value).isWritable = false)
    : Numeral.longest < literal.whole.length := by
  have tooLong := number_of_numeric h
  rw [long, if_neg (by simp), NumberLiteral.number] at tooLong
  split at tooLong
  next longer => exact longer.2
  next => cases tooLong

/-- Values of literals that can be read have no parts and few enough digits. -/
theorem isLiteral_of_shortLiteral {t rest : Text} {value : Value}
    (h : ShortLiteral t value rest)
    : value.IsLiteral := by
  obtain ⟨spelling, short⟩ := h
  cases spelling with
  | string _ => trivial
  | @number _ literal _ _ =>
      cases number : literal.value with
      | int n =>
          rw [number, Value.isWritable, Numeral.isWritable_iff] at short
          exact short
      | float _ => trivial
  | true => trivial
  | false => trivial
  | null => trivial

/-- What a number is read as is what it denotes. -/
theorem shortLiteral_of_number {t rest : Text} {literal : NumberLiteral} {n : Number}
    (h : Numeric t literal rest) (value : literal.number = .ok n)
    : ShortLiteral t (.number n) rest := by
  rw [number_of_numeric h] at value
  split at value
  next short =>
    obtain rfl := Except.ok.inj value
    exact .mk (.number h) short
  next => cases value

/-- A number that is read is a literal with few enough digits. -/
theorem number_sound {t rest : Text} {n : Number} (h : number t = .ok (n, rest))
    : ShortLiteral t (.number n) rest := by
  unfold number at h
  split at h
  next => simp [fail] at h
  next literal after scanned =>
    split at h
    next => simp [fail] at h
    next =>
      split at h
      next value =>
        obtain ⟨rfl, rfl⟩ := Prod.mk.inj (Except.ok.inj h)
        exact shortLiteral_of_number (scan?_sound scanned) value
      next => simp [fail] at h

/-- Numbers are read as they are spelled, but for integers of too many digits. -/
theorem number_complete {t rest : Text} {literal : NumberLiteral}
    (h : Numeric t literal rest) (ends : Avoids isNumberPart rest)
    : Yields Fault.IsOversized (Value.number literal.value).isWritable (number t)
        (literal.value, rest) := by
  have noDigit := startsWithDigit_eq_false
    (ends.mono fun c isDigit => by simp [isNumberPart, isDigit])
  have noPoint : rest.head? ≠ some (.char '.') := by
    cases rest with
    | nil => simp
    | cons c rest =>
        have stop := ends c rest rfl
        rintro eq
        obtain rfl := Option.some.inj eq
        simp [isNumberPart] at stop
  cases short : (Value.number literal.value).isWritable with
  | true =>
      refine .of_ok ?_
      simp [number, scan?_complete h ends, noDigit, noPoint, number_of_numeric h, short]
  | false =>
      refine ⟨⟨.oversizedInteger literal.whole.length, t⟩, ?_,
        literal.whole.length, longest_lt_of_not_isWritable h short, rfl⟩
      simp [number, scan?_complete h ends, noDigit, noPoint, number_of_numeric h, short, fail]

end JsonPath.Syntax
