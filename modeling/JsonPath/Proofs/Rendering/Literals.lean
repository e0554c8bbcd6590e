import JsonPath.Proofs.Reading.Completeness
import JsonPath.Proofs.Rendering.Numbers
import JsonPath.Proofs.Rendering.Strings

/-! Rendered literals are read as what they render, unless they are infinite: an infinity has
no literal of its own, and its text is a syntax error wherever an expression can stand.
-/

namespace JsonPath

namespace Grammar

/-- The text of a literal in front of another text. -/
inductive RenderedLiteral : Production Value
  | mk {value rest} (isLiteral : value.IsLiteral)
    : RenderedLiteral (value.text ++ rest) value rest

/-- The text of a finite literal is a literal that can be read. -/
theorem shortLiteral_of_isFinite {value : Value} (isLiteral : value.IsLiteral)
    (finite : value.isFinite) (rest : Text)
    : ShortLiteral (value.text ++ rest) value rest := by
  cases value with
  | null => exact .mk .null rfl
  | bool b =>
      cases b with
      | true => exact .mk .true rfl
      | false => exact .mk .false rfl
  | number n =>
      cases n with
      | int n =>
          have spelling := Literal.number (numeric_ofInt n rest)
          rw [value_integerLiteral] at spelling
          exact .mk spelling ((Numeral.isWritable_iff n).mpr isLiteral)
      | float x =>
          obtain ⟨_, spelling, value⟩ :=
            numeric_text (by simpa [Value.isFinite, Number.isInfinite] using finite) rest
          have spelling := Literal.number spelling
          rw [value] at spelling
          exact .mk spelling rfl
  | string content => exact .mk (.string (quotedString_writeString content rest)) rfl
  | array _ => cases isLiteral
  | object _ => cases isLiteral

/-- The two texts of infinite literals. -/
theorem text_of_not_isFinite {value : Value} (infinite : value.isFinite = false)
    : value.text = ("Infinity" : Text) ∨ value.text = ("-Infinity" : Text) := by
  cases value with
  | number n =>
      cases n with
      | int _ => cases infinite
      | float x =>
          have last : x.index.val = Binary64.infinityIndex := by
            simpa [Value.isFinite, Number.isInfinite, Binary64.isInfinite] using infinite
          have magnitude : Binary64.magnitudeText x.index.val = ("Infinity" : Text) := by
            rw [Binary64.magnitudeText, if_pos last]
          have text : Value.text (.number (.float x)) = x.text := rfl
          rw [text, Binary64.text, magnitude]
          split
          next => exact .inr rfl
          next => exact .inl rfl
  | null => cases infinite
  | bool _ => cases infinite
  | string _ => cases infinite
  | array _ => cases infinite
  | object _ => cases infinite

/-- Rendered literals start as literals do, or with the first letter of infinity. -/
theorem isProper_renderedLiteral : Syntax.IsProper Syntax.offPrimary RenderedLiteral where
  starts h := by
    obtain ⟨isLiteral⟩ := h
    rename_i value rest
    cases finite : value.isFinite with
    | true =>
        have spelling := shortLiteral_of_isFinite isLiteral finite rest
        exact Syntax.isProper_shortLiteral.starts spelling
    | false =>
        rcases text_of_not_isFinite finite with text | text
        all_goals
          rw [text]
          exact Syntax.starts_of_char rfl (by decide)
  length_lt h := by
    obtain ⟨isLiteral⟩ := h
    rename_i value rest
    cases finite : value.isFinite with
    | true =>
        have spelling := shortLiteral_of_isFinite isLiteral finite rest
        exact Syntax.isProper_shortLiteral.length_lt spelling
    | false =>
        rcases text_of_not_isFinite finite with text | text
        all_goals simp [text, Text.ofString]; omega

end Grammar

namespace Syntax

open Grammar

variable {limit : Nat} {nested : Text → Except Fault (Expression × Text)}

/-- An upper case letter starts no expression. -/
theorem primary_infinity (rest : Text)
    : ∃ fault,
      primary limit nested (("Infinity" : Text) ++ rest) = .error fault ∧ fault.IsSyntax := by
  have starts : StartsOff ['@', '$', '"', '\'', '-'] (("Infinity" : Text) ++ rest) :=
    starts_of_char rfl (by decide)
  have noDigit : Avoids CodePoint.isNumericDigit (("Infinity" : Text) ++ rest) := by
    rintro c after eq
    obtain ⟨rfl, -⟩ := List.cons.inj eq
    decide
  rw [primary_eq_callOrWord starts noDigit]
  refine ⟨⟨.invalidExpression (.char 'I'), ("Infinity" : Text) ++ rest⟩, rfl, ?_⟩
  intro digits eq
  cases eq

/-- A minus sign is followed by digits. -/
theorem primary_minusInfinity (rest : Text)
    : ∃ fault,
      primary limit nested (("-Infinity" : Text) ++ rest) = .error fault ∧ fault.IsSyntax := by
  refine ⟨⟨.invalidNumber, ("-Infinity" : Text) ++ rest⟩, rfl, ?_⟩
  intro digits eq
  cases eq

/-- Rendered literals are read back, unless they are infinite. -/
theorem readsLiterals_rendered
    : ReadsLiterals Fault.IsSyntax Value.isFinite RenderedLiteral where
  toIsProper := isProper_renderedLiteral
  complete h bound ends := by
    obtain ⟨isLiteral⟩ := h
    rename_i value rest
    cases finite : value.isFinite with
    | true =>
        have spelling := shortLiteral_of_isFinite isLiteral finite rest
        exact readsLiterals_short.complete spelling bound ends
    | false =>
        rcases text_of_not_isFinite finite with text | text
        · rw [text]
          exact primary_infinity rest
        · rw [text]
          exact primary_minusInfinity rest

end Syntax

end JsonPath
