import JsonPath.Proofs.Reading.Names
import JsonPath.Proofs.Reading.Numbers
import JsonPath.Proofs.Reading.Strings

/-! What the spellings of a production look like from outside: none is empty, and some
characters start none of them. This is what readers look at when they choose what to read.
-/

namespace JsonPath.Syntax

open Grammar

/-- The text starts with a character that is neither a blank nor one of the given ones. -/
def StartsOff (others : List Char) (t : Text) : Prop :=
  ∃ c rest, t = c :: rest ∧ c.isBlank = false ∧ ∀ d ∈ others, c ≠ .char d

namespace StartsOff

variable {others fewer : List Char} {t : Text}

/-- A text that starts off has no blanks to be skipped. -/
theorem isSolid (h : StartsOff others t) : IsSolid t := by
  obtain ⟨c, rest, rfl, notBlank, _⟩ := h
  exact isSolid_cons notBlank

theorem mono (h : StartsOff others t) (subset : ∀ d ∈ fewer, d ∈ others)
    : StartsOff fewer t := by
  obtain ⟨c, rest, rfl, notBlank, notOther⟩ := h
  exact ⟨c, rest, rfl, notBlank, fun d member => notOther d (subset d member)⟩

theorem ne (h : StartsOff others t) {d : Char} {rest : Text} (eq : t = .char d :: rest)
    : d ∉ others := by
  obtain ⟨c, after, rfl, _, notOther⟩ := h
  obtain ⟨rfl, -⟩ := List.cons.inj eq
  exact fun member => notOther d member rfl

end StartsOff

/-- The spellings of a production are not empty, and none starts with a blank or one of the
given characters.
-/
structure IsProper {α : Type} (others : List Char) (Item : Production α) : Prop where
  starts : ∀ {t a rest}, Item t a rest → StartsOff others t
  length_lt : ∀ {t a rest}, Item t a rest → rest.length < t.length

/-- What starts no expression. -/
def offExpression : List Char :=
  [')', '?']

/-- What starts no primary expression: nor do negations and parentheses, which are told from
them by their first character, and equals signs, which would belong to an operator.
-/
def offPrimary : List Char :=
  [')', '?', '!', '(', '=']

variable {α : Type} {others : List Char}

/-- Joined items start as the first one does and are as long as it at least. -/
theorem isProper_joined {operator : Text} {Item : Production α} (proper : IsProper others Item)
    : IsProper others (Joined operator Item) where
  starts h := by
    cases h with
    | one spelling => exact proper.starts spelling
    | more first _ _ _ => exact proper.starts first
  length_lt h := by
    induction h with
    | one spelling => exact proper.length_lt spelling
    | more first before after _ ih =>
        have first := proper.length_lt first
        have before := length_le_of_blanks before
        have after := length_le_of_blanks after
        rw [List.length_append] at before
        omega

/-- Items in a row leave no more than the text, by induction on the row. -/
theorem length_le_of_repeated {Item : Production α} {t rest : Text} {items : List α}
    (shorter : ∀ {t a rest}, Item t a rest → rest.length < t.length)
    (h : Repeated Item t items rest)
    : rest.length ≤ t.length := by
  induction h with
  | none => exact le_rfl
  | more first _ ih => exact ih.trans (shorter first).le

/-- A list takes at least its first item. -/
theorem length_lt_of_listed {Item : Production α} {t rest : Text} {items : List α}
    (shorter : ∀ {t a rest}, Item t a rest → rest.length < t.length)
    (h : Listed Item t items rest)
    : rest.length < t.length := by
  induction h with
  | one before spelling after =>
      have before := length_le_of_blanks before
      have spelling := shorter spelling
      have after := length_le_of_blanks after
      omega
  | more before spelling after _ ih =>
      have before := length_le_of_blanks before
      have spelling := shorter spelling
      have after := length_le_of_blanks after
      rw [List.length_cons] at after
      omega

-----------------------------------------------------------------------------------------
-- Tokens
-----------------------------------------------------------------------------------------

theorem length_lt_of_quotedString {t content rest : Text} (h : QuotedString t content rest)
    : rest.length < t.length := by
  obtain ⟨_, characters⟩ := h
  have shorter := length_le_of_repeated length_lt_of_stringCharacter characters
  rw [List.length_cons] at shorter ⊢
  omega

/-- Digits differ from characters that are no digits. -/
theorem starts_of_isDigit {c : CodePoint} {rest : Text} (h : c.isDigit)
    (noDigit : ∀ d ∈ others, d.isDigit = false)
    : StartsOff others (c :: rest) := by
  refine ⟨c, rest, rfl, ?_, ?_⟩
  · cases blank : c.isBlank with
    | false => rfl
    | true => exact absurd h (by simp [blank_avoids (p := CodePoint.isDigit) (by decide) c blank])
  · rintro d member rfl
    simp [noDigit d member, CodePoint.isDigit] at h

theorem starts_of_isLower {c : CodePoint} {rest : Text} (h : isLower c)
    (noLower : ∀ d ∈ others, d.isLower = false)
    : StartsOff others (c :: rest) := by
  refine ⟨c, rest, rfl, ?_, ?_⟩
  · cases blank : c.isBlank with
    | false => rfl
    | true => exact absurd h (by simp [blank_avoids (p := isLower) (by decide) c blank])
  · rintro d member rfl
    simp [noLower d member, isLower] at h

/-- A character that is neither a blank nor one of the others starts a text off. -/
theorem starts_of_char {d : Char} {rest : Text}
    (notBlank : (CodePoint.char d).isBlank = false) (notOther : d ∉ others)
    : StartsOff others (.char d :: rest) := by
  refine ⟨.char d, rest, rfl, notBlank, ?_⟩
  rintro e member eq
  obtain rfl := CodePoint.char.inj eq
  exact notOther member

theorem starts_of_isQuote {quote : CodePoint} {rest : Text} (h : IsQuote quote)
    (noQuote : '"' ∉ others ∧ '\'' ∉ others)
    : StartsOff others (quote :: rest) := by
  rcases h with rfl | rfl
  · exact starts_of_char (by decide) noQuote.1
  · exact starts_of_char (by decide) noQuote.2

/-- An integer part starts with a digit. -/
theorem head_of_whole {digits : Text} (h : Whole digits) (rest : Text)
    : ∃ c after, digits ++ rest = c :: after ∧ c.isDigit := by
  cases h with
  | zero => exact ⟨_, _, rfl, by decide⟩
  | digits first _ _ => exact ⟨_, _, rfl, first⟩

/-- An integer part starts off from what is no digit. -/
theorem starts_of_whole {digits rest : Text} (h : Whole digits)
    (noDigit : ∀ d ∈ others, d.isDigit = false)
    : StartsOff others (digits ++ rest) := by
  obtain ⟨c, after, eq, isDigit⟩ := head_of_whole h rest
  rw [eq]
  exact starts_of_isDigit isDigit noDigit

/-- Behind an optional minus, the text starts as the number does. -/
theorem starts_of_minus {t rest : Text} {negative : Bool} (h : Minus t negative rest)
    (starts : StartsOff others rest) (noMinus : '-' ∉ others)
    : StartsOff others t := by
  cases h with
  | absent => exact starts
  | present => exact starts_of_char (by decide) noMinus

/-- An optional minus takes at most one character. -/
theorem length_le_of_minus {t rest : Text} {negative : Bool} (h : Minus t negative rest)
    : rest.length ≤ t.length := by
  cases h with
  | absent => exact le_rfl
  | present => exact Nat.le_succ _

theorem length_pos_of_whole {digits : Text} (h : Whole digits) : 0 < digits.length := by
  cases h <;> simp

/-- An integer starts with a digit or a minus. -/
theorem starts_of_integer {t rest : Text} {n : Int} (h : Integer t n rest)
    (noDigit : ∀ d ∈ others, d.isDigit = false) (noMinus : '-' ∉ others)
    : StartsOff others t := by
  obtain ⟨sign, whole, _, _⟩ := h
  exact starts_of_minus sign (starts_of_whole whole noDigit) noMinus

theorem isSolid_of_integer {t rest : Text} {n : Int} (h : Integer t n rest) : IsSolid t :=
  have starts : StartsOff [] t := starts_of_integer h (by simp) (by simp)
  starts.isSolid

theorem length_lt_of_integer {t rest : Text} {n : Int} (h : Integer t n rest)
    : rest.length < t.length := by
  obtain ⟨sign, whole, _, _⟩ := h
  have sign := length_le_of_minus sign
  have whole := length_pos_of_whole whole
  rw [List.length_append] at sign
  omega

theorem length_le_of_fraction {t fraction rest : Text} (h : Fraction t fraction rest)
    : rest.length ≤ t.length := by
  cases h with
  | absent => exact le_rfl
  | digits _ =>
      simp only [List.length_append, List.length_cons]
      omega

theorem length_le_of_exponent {t rest : Text} {exponent : Option (Bool × Text)}
    (h : Exponent t exponent rest)
    : rest.length ≤ t.length := by
  cases h with
  | absent => exact le_rfl
  | digits _ _ _ =>
      simp only [List.length_append, List.length_cons]
      omega

/-- A number takes at least the first digit of its integer part. -/
theorem length_lt_of_numeric {t rest : Text} {literal : NumberLiteral}
    (h : Numeric t literal rest)
    : rest.length < t.length := by
  obtain ⟨sign, whole, hasFraction, hasExponent⟩ := h
  have sign := length_le_of_minus sign
  have whole := length_pos_of_whole whole
  have hasFraction := length_le_of_fraction hasFraction
  have hasExponent := length_le_of_exponent hasExponent
  rw [List.length_append] at sign
  omega

/-- A literal starts with a quote, a digit, a minus or the first letter of a constant. -/
theorem starts_of_literal {t rest : Text} {value : Value} (h : Literal t value rest)
    (noDigit : ∀ d ∈ others, d.isDigit = false)
    (notOther : ∀ d ∈ ['"', '\'', '-', 't', 'f', 'n'], d ∉ others)
    : StartsOff others t := by
  cases h with
  | string spelling =>
      obtain ⟨isQuote, _⟩ := spelling
      exact starts_of_isQuote isQuote ⟨notOther _ (by simp), notOther _ (by simp)⟩
  | number spelling =>
      obtain ⟨sign, whole, _, _⟩ := spelling
      exact starts_of_minus sign (starts_of_whole whole noDigit) (notOther _ (by simp))
  | true => exact starts_of_char (by decide) (notOther 't' (by simp))
  | false => exact starts_of_char (by decide) (notOther 'f' (by simp))
  | null => exact starts_of_char (by decide) (notOther 'n' (by simp))

/-- Literals are spelled by tokens of their own. -/
theorem isProper_literal : IsProper offPrimary Literal where
  starts h := starts_of_literal h (by decide) (by decide)
  length_lt h := by
    cases h with
    | string spelling => exact length_lt_of_quotedString spelling
    | number spelling => exact length_lt_of_numeric spelling
    | true => simp [Text.ofString]; omega
    | false => simp [Text.ofString]; omega
    | null => simp [Text.ofString]; omega

/-- Those that can be read are some of them. -/
theorem isProper_shortLiteral : IsProper offPrimary ShortLiteral where
  starts h := by
    obtain ⟨spelling, _⟩ := h
    exact isProper_literal.starts spelling
  length_lt h := by
    obtain ⟨spelling, _⟩ := h
    exact isProper_literal.length_lt spelling

-----------------------------------------------------------------------------------------
-- Selectors and segments
-----------------------------------------------------------------------------------------

theorem length_le_of_bound {t rest : Text} {bound : Option Int} (h : Bound t bound rest)
    : rest.length ≤ t.length := by
  cases h with
  | absent => exact le_rfl
  | integer spelling blanks =>
      exact (length_le_of_blanks blanks).trans (length_lt_of_integer spelling).le

theorem length_le_of_sliceStep {t rest : Text} {step : Int} (h : SliceStep t step rest)
    : rest.length ≤ t.length := by
  cases h with
  | absent => exact le_rfl
  | colon blanks => exact (length_le_of_blanks blanks).trans (Nat.le_succ _)
  | integer blanks spelling =>
      have blanks := length_le_of_blanks blanks
      have spelling := length_lt_of_integer spelling
      rw [List.length_cons]
      omega

section Nesting

variable {Literal : Production Value} {Nested : Production Expression}

/-- Selectors are not empty, and no blanks are in front of them. -/
theorem isProper_selector (proper : IsProper offExpression Nested)
    : IsProper [] (Selector Nested) where
  starts h := by
    cases h with
    | name spelling =>
        obtain ⟨isQuote, _⟩ := spelling
        exact starts_of_isQuote isQuote (by decide)
    | wildcard => exact starts_of_char rfl (by decide)
    | index spelling => exact starts_of_integer spelling (by decide) (by decide)
    | slice hasStart _ _ _ =>
        cases hasStart with
        | absent => exact starts_of_char rfl (by decide)
        | integer spelling _ => exact starts_of_integer spelling (by decide) (by decide)
    | filter _ _ _ => exact starts_of_char rfl (by decide)
  length_lt h := by
    cases h with
    | name spelling => exact length_lt_of_quotedString spelling
    | wildcard => exact Nat.lt_succ_self _
    | index spelling => exact length_lt_of_integer spelling
    | slice hasStart blanks hasStop hasStep =>
        have hasStart := length_le_of_bound hasStart
        have blanks := length_le_of_blanks blanks
        have hasStop := length_le_of_bound hasStop
        have hasStep := length_le_of_sliceStep hasStep
        rw [List.length_cons] at hasStart
        omega
    | filter blanks spelling _ =>
        have blanks := length_le_of_blanks blanks
        have spelling := proper.length_lt spelling
        rw [List.length_cons]
        omega

/-- A selection starts with its bracket. -/
theorem head_of_brackets {t rest : Text} {selector : Segment}
    (h : Brackets Nested t selector rest)
    : ∃ behind, t = .char '[' :: behind := by
  obtain ⟨behind, _, text, -⟩ := brackets_iff.mp h
  exact ⟨behind, text⟩

/-- A selection takes at least its bracket. -/
theorem length_lt_of_brackets (proper : IsProper offExpression Nested) {t rest : Text}
    {selector : Segment} (h : Brackets Nested t selector rest)
    : rest.length < t.length := by
  obtain ⟨_, _, rfl, spelling, -⟩ := brackets_iff.mp h
  have shorter := length_lt_of_listed (isProper_selector proper).length_lt spelling
  rw [List.length_cons] at shorter ⊢
  omega

/-- Segments start with a dot or a bracket. -/
theorem endsAt_of_segmentGroup {t rest : Text} {group : List Segment}
    (h : SegmentGroup Nested t group rest)
    : EndsAt ['.', '['] t := by
  cases h with
  | dotted _ => exact .cons (by simp) rfl
  | brackets spelling =>
      obtain ⟨_, rfl⟩ := head_of_brackets spelling
      exact .cons (by simp) rfl
  | dottedDescent _ => exact .cons (by simp) rfl
  | bracketsDescent _ => exact .cons (by simp) rfl

/-- A group of segments takes at least its dots or its bracket. -/
theorem length_lt_of_spacedGroup (proper : IsProper offExpression Nested) {t rest : Text}
    {group : List Segment} (h : SpacedGroup Nested t group rest)
    : rest.length < t.length := by
  obtain ⟨blanks, spelling⟩ := h
  refine lt_of_lt_of_le ?_ (length_le_of_blanks blanks)
  cases spelling with
  | dotted spelling => exact (length_lt_of_dotted spelling).trans (Nat.lt_succ_self _)
  | brackets spelling => exact length_lt_of_brackets proper spelling
  | dottedDescent spelling =>
      have shorter := length_lt_of_dotted spelling
      simp only [List.length_cons]
      omega
  | bracketsDescent spelling =>
      have shorter := length_lt_of_brackets proper spelling
      simp only [List.length_cons]
      omega

/-- Segments leave no more than the text. -/
theorem length_le_of_segments (proper : IsProper offExpression Nested) {t rest : Text}
    {query : Query} (h : Segments Nested t query rest)
    : rest.length ≤ t.length := by
  obtain ⟨spelling⟩ := h
  exact length_le_of_repeated (length_lt_of_spacedGroup proper) spelling

-----------------------------------------------------------------------------------------
-- Expressions
-----------------------------------------------------------------------------------------

/-- Arguments take at least the parenthesis that closes them. -/
theorem length_lt_of_arguments (proper : IsProper offExpression Nested) {t rest : Text}
    {es : List Expression} (h : Arguments Nested t es rest)
    : rest.length < t.length := by
  cases h with
  | none blanks =>
      have shorter := length_le_of_blanks blanks
      rwa [List.length_cons] at shorter
  | some spelling =>
      have shorter := length_lt_of_listed proper.length_lt spelling
      rw [List.length_cons] at shorter
      omega

/-- Operands are not empty and start with neither a negation nor a parenthesis. -/
theorem isProper_primary (properLiteral : IsProper offPrimary Literal)
    (proper : IsProper offExpression Nested)
    : IsProper offPrimary (Primary Literal Nested) where
  starts h := by
    cases h with
    | literal spelling => exact properLiteral.starts spelling
    | current _ => exact starts_of_char rfl (by decide)
    | root _ => exact starts_of_char rfl (by decide)
    | call isName _ _ =>
        obtain ⟨first, _⟩ := isName
        exact starts_of_isLower first (by decide)
  length_lt h := by
    cases h with
    | literal spelling => exact properLiteral.length_lt spelling
    | current spelling => exact Nat.lt_succ_of_le (length_le_of_segments proper spelling)
    | root spelling => exact Nat.lt_succ_of_le (length_le_of_segments proper spelling)
    | call _ spelling _ =>
        have shorter := length_lt_of_arguments proper spelling
        rw [List.length_append, List.length_cons]
        omega

theorem head_of_parentheses {t rest : Text} {e : Expression} (h : Parentheses Nested t e rest)
    : ∃ behind, t = .char '(' :: behind := by
  cases h
  exact ⟨_, rfl⟩

theorem length_lt_of_parentheses (proper : IsProper offExpression Nested) {t rest : Text}
    {e : Expression} (h : Parentheses Nested t e rest)
    : rest.length < t.length := by
  obtain ⟨before, spelling, _, after⟩ := h
  have before := length_le_of_blanks before
  have spelling := proper.length_lt spelling
  have after := length_le_of_blanks after
  rw [List.length_cons] at after ⊢
  omega

/-- Basic expressions are not empty and start with what can start an expression. -/
theorem isProper_basic (properLiteral : IsProper offPrimary Literal)
    (proper : IsProper offExpression Nested)
    : IsProper offExpression (Basic Literal Nested) where
  starts h := by
    have startsPrimary {t e rest} (spelling : Primary Literal Nested t e rest)
        : StartsOff offExpression t :=
      ((isProper_primary properLiteral proper).starts spelling).mono (by decide)
    cases h with
    | negatedParentheses _ _ => exact starts_of_char rfl (by decide)
    | negatedPrimary _ _ _ _ => exact starts_of_char rfl (by decide)
    | parentheses spelling =>
        obtain ⟨_, rfl⟩ := head_of_parentheses spelling
        exact starts_of_char rfl (by decide)
    | primary spelling => exact startsPrimary spelling
    | comparison hasLeft _ _ _ _ _ => exact startsPrimary hasLeft
  length_lt h := by
    have shorter {t e rest} (spelling : Primary Literal Nested t e rest)
        : rest.length < t.length :=
      (isProper_primary properLiteral proper).length_lt spelling
    cases h with
    | negatedParentheses blanks spelling =>
        have blanks := length_le_of_blanks blanks
        have spelling := length_lt_of_parentheses proper spelling
        rw [List.length_cons]
        omega
    | negatedPrimary blanks spelling _ _ =>
        have blanks := length_le_of_blanks blanks
        have spelling := shorter spelling
        rw [List.length_cons]
        omega
    | parentheses spelling => exact length_lt_of_parentheses proper spelling
    | primary spelling => exact shorter spelling
    | comparison hasLeft before after hasRight _ _ =>
        have hasLeft := shorter hasLeft
        have before := length_le_of_blanks before
        have after := length_le_of_blanks after
        have hasRight := shorter hasRight
        rw [List.length_append] at before
        omega

/-- Conjunctions are proper as joined basic expressions are. -/
theorem isProper_conjunction (properLiteral : IsProper offPrimary Literal)
    (proper : IsProper offExpression Nested)
    : IsProper offExpression (Conjunction Literal Nested) where
  starts h := by
    obtain ⟨_, spelling, -⟩ := conjunction_iff.mp h
    exact (isProper_joined (isProper_basic properLiteral proper)).starts spelling
  length_lt h := by
    obtain ⟨_, spelling, -⟩ := conjunction_iff.mp h
    exact (isProper_joined (isProper_basic properLiteral proper)).length_lt spelling

/-- Disjunctions are proper as joined conjunctions are. -/
theorem isProper_disjunction (properLiteral : IsProper offPrimary Literal)
    (proper : IsProper offExpression Nested)
    : IsProper offExpression (Disjunction Literal Nested) where
  starts h := by
    obtain ⟨_, spelling, -⟩ := disjunction_iff.mp h
    exact (isProper_joined (isProper_conjunction properLiteral proper)).starts spelling
  length_lt h := by
    obtain ⟨_, spelling, -⟩ := disjunction_iff.mp h
    exact (isProper_joined (isProper_conjunction properLiteral proper)).length_lt spelling

end Nesting

/-- Logical expressions are proper at every level of nesting, by induction on it. -/
theorem isProper_logical {Literal : Production Value} (proper : IsProper offPrimary Literal)
    (depth : Nat)
    : IsProper offExpression (Logical Literal depth) := by
  induction depth with
  | zero => exact ⟨nofun, nofun⟩
  | succ depth ih => exact isProper_disjunction proper ih

end JsonPath.Syntax
