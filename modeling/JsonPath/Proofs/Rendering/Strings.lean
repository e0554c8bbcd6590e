import JsonPath.Proofs.Grammar.Token
import JsonPath.Query.Printer

/-! Rendered names and strings spell what they render, whatever characters they have. -/

namespace JsonPath

/-- A character is the code point of its number. -/
theorem CodePoint.ofNat_toNat_char (c : Char) : ofNat (char c).toNat = char c := by
  have valid : c.toNat.isValidChar := c.valid
  have back := Char.ofNat_toNat c
  rw [Char.ofNat, dif_pos valid] at back
  rw [ofNat, ofNat?, toNat, dif_pos valid, back, Option.getD_some]

namespace Grammar

/-- The numeric escape of a control character. -/
theorem stringCharacter_hex {quote c : CodePoint} (control : c.toNat < 0x20) (rest : Text)
    : StringCharacter quote (("\\u" : Text) ++ Numeral.hex 4 c.toNat ++ rest) c rest := by
  have value : ∀ n < 0x20, Numeral.hexToNat? (Numeral.hex 4 n) = some n := by decide
  have digits : CodeUnit (Numeral.hex 4 c.toNat ++ rest) c.toNat rest :=
    .digits (value c.toNat control)
  have notLow : Surrogate.isLow c.toNat = false := by
    simp only [Surrogate.isLow, Bool.and_eq_false_iff, decide_eq_false_iff_not]
    omega
  have notHigh : Surrogate.isHigh c.toNat = false := by
    simp only [Surrogate.isHigh, Bool.and_eq_false_iff, decide_eq_false_iff_not]
    omega
  have spelling : StringCharacter quote _ (.ofNat c.toNat) rest :=
    .unit digits notLow notHigh
  cases c with
  | char c => rwa [CodePoint.ofNat_toNat_char] at spelling
  | surrogate offset =>
      simp only [CodePoint.toNat] at control
      omega

/-- A character of a name is written as the grammar spells it in single quotes. -/
theorem stringCharacter_quoteChar (c : CodePoint) (rest : Text)
    : StringCharacter (.char '\'') (quoteChar c ++ rest) c rest := by
  unfold quoteChar
  split
  next => exact .simple rfl
  next => exact .simple rfl
  next => exact .simple rfl
  next => exact .simple rfl
  next => exact .simple rfl
  next => exact .quote
  next => exact .simple rfl
  next notQuote notBackslash =>
    split
    next control => exact stringCharacter_hex control rest
    next notControl => exact .plain notQuote notBackslash (Nat.le_of_not_lt notControl)

/-- A character of a string is written as the grammar spells it in double quotes. -/
theorem stringCharacter_writeChar (c : CodePoint) (rest : Text)
    : StringCharacter (.char '"') (Document.writeChar c ++ rest) c rest := by
  unfold Document.writeChar
  split
  next => exact .quote
  next => exact .simple rfl
  next => exact .simple rfl
  next => exact .simple rfl
  next => exact .simple rfl
  next => exact .simple rfl
  next => exact .simple rfl
  next notQuote notBackslash _ _ _ _ _ =>
    split
    next control => exact stringCharacter_hex control rest
    next notControl => exact .plain notQuote notBackslash (Nat.le_of_not_lt notControl)

/-- Characters that are written one by one are spelled one by one. -/
theorem repeated_flatMap {quote : CodePoint} {write : CodePoint → Text}
    (spelled : ∀ c rest, StringCharacter quote (write c ++ rest) c rest)
    (content rest : Text)
    : Repeated (StringCharacter quote) (content.flatMap write ++ rest) content rest := by
  induction content with
  | nil => exact .none
  | cons c content ih =>
      rw [List.flatMap_cons, List.append_assoc]
      exact .more (spelled c _) ih

/-- A name is written as a string in single quotes. -/
theorem quotedString_quoteName (name rest : Text)
    : QuotedString (quoteName name ++ rest) name rest := by
  have characters := repeated_flatMap stringCharacter_quoteChar name (.char '\'' :: rest)
  simp only [quoteName, List.cons_append, List.append_assoc, List.nil_append]
  exact .mk (.inr rfl) characters

theorem quotedString_writeString (content rest : Text)
    : QuotedString (Document.writeString content ++ rest) content rest := by
  have characters := repeated_flatMap stringCharacter_writeChar content (.char '"' :: rest)
  simp only [Document.writeString, List.cons_append, List.append_assoc, List.nil_append]
  exact .mk (.inl rfl) characters

/-- Plain names are member names in dot notation. -/
theorem memberName_of_isPlainName {name : Text} (plain : isPlainName name) (rest : Text)
    : MemberName (name ++ rest) name rest := by
  have isFirst {c : CodePoint} (h : c.isAsciiNameFirst) : Syntax.isNameFirst c := by
    cases c with
    | surrogate _ => cases h
    | char c => simp [Syntax.isNameFirst, h]
  cases name with
  | nil => cases plain
  | cons c cs =>
      simp only [isPlainName, Bool.and_eq_true, List.all_eq_true] at plain
      refine .mk (isFirst plain.1) ?_
      intro d member
      have either := plain.2 d member
      rw [Bool.or_eq_true] at either
      rw [Syntax.isNameChar, Bool.or_eq_true]
      exact either.imp isFirst id

end Grammar

end JsonPath
