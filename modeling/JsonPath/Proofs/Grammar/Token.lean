import JsonPath.Query.Lexeme
import JsonPath.Value.Printer

/-! The tokens of queries as productions of a grammar over texts. A production relates a text
to what its beginning spells and to the text after it, so that concatenation is composition
of relations. Productions do not say how far a token has to reach: a run of digits has a
spelling of a number at the start for each of its beginnings.
-/

namespace JsonPath.Grammar

/-- `P t a rest` says that the text `t` is a spelling of `a` followed by `rest`. -/
abbrev Production (α : Type) := Text → α → Text → Prop

/-- A condition on the characters of a list is decided on them rather than on all characters.
-/
instance (priority := 2000) decidableForallMem {p : Char → Prop} [DecidablePred p]
    (cs : List Char)
    : Decidable (∀ c ∈ cs, p c) :=
  List.decidableBAll p cs

/-- Any number of blanks. -/
inductive Blanks : Text → Text → Prop
  | none {t} : Blanks t t
  | more {c t rest} (blank : c.isBlank) (others : Blanks t rest) : Blanks (c :: t) rest

/-- Any number of items, one directly after another. -/
inductive Repeated {α : Type} (Item : Production α) : Production (List α)
  | none {t} : Repeated Item t [] t
  | more {t item mid items rest} (first : Item t item mid)
    (others : Repeated Item mid items rest)
    : Repeated Item t (item :: items) rest

/-- One or more items with an operator between any two, which can have blanks on both sides.
-/
inductive Joined {α : Type} (operator : Text) (Item : Production α) : Production (List α)
  | one {t item rest} (spelling : Item t item rest) : Joined operator Item t [item] rest
  | more {t item afterItem behind start items rest} (first : Item t item afterItem)
    (before : Blanks afterItem (operator ++ behind)) (after : Blanks behind start)
    (others : Joined operator Item start items rest)
    : Joined operator Item t (item :: items) rest

/-- One or more items with commas between any two, each with blanks on both sides. -/
inductive Listed {α : Type} (Item : Production α) : Production (List α)
  | one {t start item stop rest} (before : Blanks t start) (spelling : Item start item stop)
    (after : Blanks stop rest)
    : Listed Item t [item] rest
  | more {t start item stop afterComma items rest} (before : Blanks t start)
    (spelling : Item start item stop) (after : Blanks stop (.char ',' :: afterComma))
    (others : Listed Item afterComma items rest)
    : Listed Item t (item :: items) rest

-----------------------------------------------------------------------------------------
-- Quoted strings
-----------------------------------------------------------------------------------------

def IsQuote (c : CodePoint) : Prop :=
  c = .char '"' ∨ c = .char '\''

/-- Four hexadecimal digits of either case. -/
inductive CodeUnit : Production Nat
  | digits {a b c d unit rest} (value : Numeral.hexToNat? [a, b, c, d] = some unit)
    : CodeUnit (a :: b :: c :: d :: rest) unit rest

/-- A character between quotes. Only the quote around the string can be escaped, and the
surrogates among the numeric escapes come in pairs of a high and a low one.
-/
inductive StringCharacter (quote : CodePoint) : Production CodePoint
  | plain {c rest} (notQuote : c ≠ quote) (notBackslash : c ≠ .char '\\')
    (notControl : 0x20 ≤ c.toNat)
    : StringCharacter quote (c :: rest) c rest
  | quote {rest} : StringCharacter quote (.char '\\' :: quote :: rest) quote rest
  | simple {c d rest} (value : Syntax.simpleEscape? c = some d)
    : StringCharacter quote (.char '\\' :: c :: rest) d rest
  | unit {t unit rest} (digits : CodeUnit t unit rest) (notLow : Surrogate.isLow unit = false)
    (notHigh : Surrogate.isHigh unit = false)
    : StringCharacter quote (.char '\\' :: .char 'u' :: t) (.ofNat unit) rest
  | pair {t high second low rest}
    (first : CodeUnit t high (.char '\\' :: .char 'u' :: second)) (isHigh : Surrogate.isHigh high)
    (digits : CodeUnit second low rest) (isLow : Surrogate.isLow low)
    : StringCharacter quote (.char '\\' :: .char 'u' :: t) (Surrogate.join high low) rest

/-- A string in either kind of quotes. -/
inductive QuotedString : Production Text
  | mk {quote t content rest} (isQuote : IsQuote quote)
    (characters : Repeated (StringCharacter quote) t content (quote :: rest))
    : QuotedString (quote :: t) content rest

-----------------------------------------------------------------------------------------
-- Numbers
-----------------------------------------------------------------------------------------

/-- A zero, or digits of which the first one is no zero. -/
inductive Whole : Text → Prop
  | zero : Whole [.char '0']
  | digits {c cs} (first : c.isDigit) (notZero : c ≠ .char '0')
    (others : ∀ d ∈ cs, CodePoint.isDigit d)
    : Whole (c :: cs)

/-- A minus sign, or none. -/
inductive Minus : Production Bool
  | absent {t} : Minus t false t
  | present {rest} : Minus (.char '-' :: rest) true rest

/-- An index or a bound or step of a slice: no leading zeros, no negative zero and no number
beyond the greatest magnitude.
-/
inductive Integer : Production Int
  | mk {t negative digits rest} (sign : Minus t negative (digits ++ rest))
    (whole : Whole digits) (notZero : negative → digits ≠ [.char '0'])
    (inRange : Numeral.toNat digits ≤ maxInteger)
    : Integer t (NumberLiteral.toInt negative digits) rest

/-- One or more digits. -/
def IsDigits (digits : Text) : Prop :=
  digits ≠ [] ∧ ∀ c ∈ digits, CodePoint.isDigit c

/-- The fraction of a number, whose digits are empty when it is absent. -/
inductive Fraction : Production Text
  | absent {t} : Fraction t [] t
  | digits {digits rest} (isDigits : IsDigits digits)
    : Fraction (.char '.' :: digits ++ rest) digits rest

/-- The sign of an exponent; `true` stands for a minus sign. -/
inductive ExponentSign : Text → Bool → Prop
  | absent : ExponentSign [] false
  | plus : ExponentSign [.char '+'] false
  | minus : ExponentSign [.char '-'] true

/-- The exponent of a number. -/
inductive Exponent : Production (Option (Bool × Text))
  | absent {t} : Exponent t none t
  | digits {letter sign negative digits rest}
    (isLetter : letter = CodePoint.char 'e' ∨ letter = .char 'E')
    (hasSign : ExponentSign sign negative) (isDigits : IsDigits digits)
    : Exponent (letter :: sign ++ digits ++ rest) (some (negative, digits)) rest

/-- A number: an integer part, then optionally a fraction and an exponent. -/
inductive Numeric : Production NumberLiteral
  | mk {t negative whole afterWhole fraction afterFraction exponent rest}
    (sign : Minus t negative (whole ++ afterWhole)) (isWhole : Whole whole)
    (hasFraction : Fraction afterWhole fraction afterFraction)
    (hasExponent : Exponent afterFraction exponent rest)
    : Numeric t ⟨negative, whole, fraction, exponent⟩ rest

-----------------------------------------------------------------------------------------
-- Names, literals and operators
-----------------------------------------------------------------------------------------

/-- A member name in dot notation: a letter, the underscore or a character that is neither
ASCII nor a lone surrogate, then any of these and digits.
-/
inductive MemberName : Production Text
  | mk {c cs rest} (first : Syntax.isNameFirst c) (others : ∀ d ∈ cs, Syntax.isNameChar d)
    : MemberName (c :: cs ++ rest) (c :: cs) rest

/-- The name of a function: a lower case letter, then lower case letters, digits and
underscores.
-/
inductive IsFunctionName : Text → Prop
  | mk {c cs} (first : Syntax.isLower c)
    (others : ∀ d ∈ cs, Syntax.isLower d || d.isDigit || d = .char '_')
    : IsFunctionName (c :: cs)

/-- A literal of an expression. -/
inductive Literal : Production Value
  | string {t content rest} (spelling : QuotedString t content rest)
    : Literal t (.string content) rest
  | number {t literal rest} (spelling : Numeric t literal rest)
    : Literal t (.number literal.value) rest
  | true {rest} : Literal (("true" : Text) ++ rest) (.bool true) rest
  | false {rest} : Literal (("false" : Text) ++ rest) (.bool false) rest
  | null {rest} : Literal (("null" : Text) ++ rest) .null rest

/-- A literal that can be read: it is no integer of too many digits. -/
inductive ShortLiteral : Production Value
  | mk {t value rest} (spelling : Literal t value rest) (short : value.isWritable)
    : ShortLiteral t value rest

end JsonPath.Grammar
