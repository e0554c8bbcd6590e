import JsonPath.Proofs.Grammar.Query

/-! The grammar is local: what a text spells at its start depends only on the part that is
spelled and not on what stands behind it. In particular the rest that a production leaves is
a suffix of the text. It is also monotone: a word stays one when more can stand between
delimiters, as with more levels of nesting. Both are proved together.
-/

namespace JsonPath.Grammar

/-- Whenever a text leads to a rest, it does so by a word in front of the rest, and this word
leads to every other rest as well.
-/
def IsLocal (Leads : Text → Text → Prop) : Prop :=
  ∀ {t rest}, Leads t rest → ∃ word, t = word ++ rest ∧ ∀ rest', Leads (word ++ rest') rest'

/-- The same with a second relation by which the word leads to every rest. -/
def Carries (Leads Leads' : Text → Text → Prop) : Prop :=
  ∀ ⦃t rest⦄, Leads t rest → ∃ word, t = word ++ rest ∧ ∀ rest', Leads' (word ++ rest') rest'

variable {α : Type} {Item Item' : Production α}

/-- What is carried over holds of the same text and rest, by the word between them. -/
theorem Carries.widen {Leads Leads' : Text → Text → Prop} (carries : Carries Leads Leads')
    {t rest : Text} (h : Leads t rest)
    : Leads' t rest := by
  obtain ⟨word, rfl, spells⟩ := carries h
  exact spells rest

/-- A production leaves the end of its text, by the word it spells in front of it. -/
theorem IsLocal.isSuffix {Leads : Text → Text → Prop} (isLocal : IsLocal Leads) {t rest : Text}
    (h : Leads t rest)
    : rest <:+ t := by
  obtain ⟨word, rfl, _⟩ := isLocal h
  exact ⟨word, rfl⟩

/-- Blanks do not depend on what follows them, by induction on the blanks. -/
theorem isLocal_blanks : IsLocal Blanks := by
  intro t rest h
  induction h with
  | none => exact ⟨[], rfl, fun _ => .none⟩
  | more blank _ ih =>
      obtain ⟨word, rfl, others⟩ := ih
      exact ⟨_ :: word, rfl, fun rest' => .more blank (others rest')⟩

-----------------------------------------------------------------------------------------
-- Repetition
-----------------------------------------------------------------------------------------

section Repetition

variable (carries : ∀ a, Carries (Item · a ·) (Item' · a ·))

include carries

/-- Items in a row are carried over one by one, by induction on the row. -/
theorem carries_repeated (items : List α)
    : Carries (Repeated Item · items ·) (Repeated Item' · items ·) := by
  intro t rest h
  induction h with
  | none => exact ⟨[], rfl, fun _ => .none⟩
  | more first _ ih =>
      obtain ⟨word, rfl, spells⟩ := carries _ first
      obtain ⟨words, rfl, others⟩ := ih
      refine ⟨word ++ words, by simp, fun rest' => ?_⟩
      rw [List.append_assoc]
      exact .more (spells _) (others rest')

/-- Items with an operator and blanks between them are carried over, by induction on the items.
-/
theorem carries_joined (operator : Text) (items : List α)
    : Carries (Joined operator Item · items ·) (Joined operator Item' · items ·) := by
  intro t rest h
  induction h with
  | one spelling =>
      obtain ⟨word, rfl, spells⟩ := carries _ spelling
      exact ⟨word, rfl, fun rest' => .one (spells rest')⟩
  | more first before after _ ih =>
      obtain ⟨word, rfl, spells⟩ := carries _ first
      obtain ⟨blanks, rfl, areBlanks⟩ := isLocal_blanks before
      obtain ⟨blanks', rfl, areBlanks'⟩ := isLocal_blanks after
      obtain ⟨words, rfl, others⟩ := ih
      refine ⟨word ++ (blanks ++ (operator ++ (blanks' ++ words))), by simp, fun rest' => ?_⟩
      simp only [List.append_assoc]
      exact .more (spells _) (areBlanks _) (areBlanks' _) (others rest')

/-- Lists are carried over as items that are joined by commas, with blanks around them. -/
theorem carries_listed (items : List α)
    : Carries (Listed Item · items ·) (Listed Item' · items ·) := by
  intro t rest h
  induction h with
  | one before spelling after =>
      obtain ⟨blanks, rfl, areBlanks⟩ := isLocal_blanks before
      obtain ⟨word, rfl, spells⟩ := carries _ spelling
      obtain ⟨blanks', rfl, areBlanks'⟩ := isLocal_blanks after
      refine ⟨blanks ++ (word ++ blanks'), by simp, fun rest' => ?_⟩
      simp only [List.append_assoc]
      exact .one (areBlanks _) (spells _) (areBlanks' rest')
  | more before spelling after _ ih =>
      obtain ⟨blanks, rfl, areBlanks⟩ := isLocal_blanks before
      obtain ⟨word, rfl, spells⟩ := carries _ spelling
      obtain ⟨blanks', rfl, areBlanks'⟩ := isLocal_blanks after
      obtain ⟨words, rfl, others⟩ := ih
      refine ⟨blanks ++ (word ++ (blanks' ++ .char ',' :: words)), by simp, fun rest' => ?_⟩
      simp only [List.append_assoc, List.cons_append]
      exact .more (areBlanks _) (spells _) (areBlanks' _) (others rest')

end Repetition

-----------------------------------------------------------------------------------------
-- Tokens
-----------------------------------------------------------------------------------------

theorem isLocal_codeUnit (unit : Nat) : IsLocal (CodeUnit · unit ·) := by
  intro t rest h
  obtain ⟨value⟩ := h
  exact ⟨[_, _, _, _], rfl, fun _ => .digits value⟩

/-- Each spelling of a character in a string is local, plain or escaped. -/
theorem isLocal_stringCharacter (quote c : CodePoint) : IsLocal (StringCharacter quote · c ·) := by
  intro t rest h
  cases h with
  | plain notQuote notBackslash notControl =>
      exact ⟨[_], rfl, fun _ => .plain notQuote notBackslash notControl⟩
  | quote => exact ⟨[_, _], rfl, fun _ => .quote⟩
  | simple value => exact ⟨[_, _], rfl, fun _ => .simple value⟩
  | unit digits notLow notHigh =>
      obtain ⟨word, rfl, spells⟩ := isLocal_codeUnit _ digits
      exact ⟨_ :: _ :: word, rfl, fun rest' => .unit (spells rest') notLow notHigh⟩
  | pair first isHigh digits isLow =>
      obtain ⟨word, rfl, spells⟩ := isLocal_codeUnit _ first
      obtain ⟨second, rfl, spellsSecond⟩ := isLocal_codeUnit _ digits
      refine ⟨.char '\\' :: .char 'u' :: (word ++ .char '\\' :: .char 'u' :: second), by simp,
        fun rest' => ?_⟩
      simp only [List.append_assoc, List.cons_append]
      exact .pair (spells _) isHigh (spellsSecond rest') isLow

/-- Strings are local: their characters are, and so are both quotes. -/
theorem isLocal_quotedString (content : Text) : IsLocal (QuotedString · content ·) := by
  intro t rest h
  obtain ⟨isQuote, characters⟩ := h
  rename_i quote _
  obtain ⟨word, rfl, spells⟩ := carries_repeated (isLocal_stringCharacter quote) _ characters
  refine ⟨quote :: (word ++ [quote]), by simp, fun rest' => ?_⟩
  simp only [List.append_assoc, List.cons_append]
  exact .mk isQuote (spells _)

theorem isLocal_minus (negative : Bool) : IsLocal (Minus · negative ·) := by
  intro t rest h
  cases h with
  | absent => exact ⟨[], rfl, fun _ => .absent⟩
  | present => exact ⟨[_], rfl, fun _ => .present⟩

theorem isLocal_integer (n : Int) : IsLocal (Integer · n ·) := by
  intro t rest h
  obtain ⟨sign, whole, notZero, inRange⟩ := h
  rename_i negative digits
  obtain ⟨word, rfl, spells⟩ := isLocal_minus _ sign
  refine ⟨word ++ digits, by simp, fun rest' => ?_⟩
  rw [List.append_assoc]
  exact .mk (spells _) whole notZero inRange

/-- The fraction takes no more than its point and its digits. -/
theorem isLocal_fraction (digits : Text) : IsLocal (Fraction · digits ·) := by
  intro t rest h
  cases h with
  | absent => exact ⟨[], rfl, fun _ => .absent⟩
  | digits isDigits => exact ⟨_ :: _, rfl, fun _ => .digits isDigits⟩

theorem isLocal_exponent (exponent : Option (Bool × Text)) : IsLocal (Exponent · exponent ·) := by
  intro t rest h
  cases h with
  | absent => exact ⟨[], rfl, fun _ => .absent⟩
  | digits isLetter hasSign isDigits =>
      exact ⟨_ :: _ ++ _, rfl, fun _ => .digits isLetter hasSign isDigits⟩

/-- Numbers are local, from the minus to the exponent. -/
theorem isLocal_numeric (literal : NumberLiteral) : IsLocal (Numeric · literal ·) := by
  intro t rest h
  obtain ⟨sign, isWhole, hasFraction, hasExponent⟩ := h
  rename_i whole _ _ _ _
  obtain ⟨word, rfl, spells⟩ := isLocal_minus _ sign
  obtain ⟨fraction, rfl, spellsFraction⟩ := isLocal_fraction _ hasFraction
  obtain ⟨exponent, rfl, spellsExponent⟩ := isLocal_exponent _ hasExponent
  refine ⟨word ++ (whole ++ (fraction ++ exponent)), by simp, fun rest' => ?_⟩
  simp only [List.append_assoc]
  exact .mk (spells _) isWhole (spellsFraction _) (spellsExponent rest')

/-- Member names are local, as the production leaves open where a name ends. -/
theorem isLocal_memberName (name : Text) : IsLocal (MemberName · name ·) := by
  intro t rest h
  obtain ⟨first, others⟩ := h
  exact ⟨_ :: _, rfl, fun _ => .mk first others⟩

/-- Literals are carried over, by one case for each kind of value. -/
theorem carries_literal (value : Value) : Carries (Literal · value ·) (Literal · value ·) := by
  intro t rest h
  cases h with
  | string spelling =>
      obtain ⟨word, rfl, spells⟩ := isLocal_quotedString _ spelling
      exact ⟨word, rfl, fun rest' => .string (spells rest')⟩
  | number spelling =>
      obtain ⟨word, rfl, spells⟩ := isLocal_numeric _ spelling
      exact ⟨word, rfl, fun rest' => .number (spells rest')⟩
  | true => exact ⟨_, rfl, fun _ => .true⟩
  | false => exact ⟨_, rfl, fun _ => .false⟩
  | null => exact ⟨_, rfl, fun _ => .null⟩

/-- Literals that can be read are literals of the grammar. -/
theorem carries_shortLiteral (value : Value)
    : Carries (ShortLiteral · value ·) (Literal · value ·) := by
  intro t rest h
  obtain ⟨spelling, _⟩ := h
  exact carries_literal value spelling

-----------------------------------------------------------------------------------------
-- Selectors and segments
-----------------------------------------------------------------------------------------

theorem isLocal_bound (bound : Option Int) : IsLocal (Bound · bound ·) := by
  intro t rest h
  cases h with
  | absent => exact ⟨[], rfl, fun _ => .absent⟩
  | integer spelling blanks =>
      obtain ⟨word, rfl, spells⟩ := isLocal_integer _ spelling
      obtain ⟨behind, rfl, areBlanks⟩ := isLocal_blanks blanks
      refine ⟨word ++ behind, by simp, fun rest' => ?_⟩
      rw [List.append_assoc]
      exact .integer (spells _) (areBlanks rest')

theorem isLocal_sliceStep (step : Int) : IsLocal (SliceStep · step ·) := by
  intro t rest h
  cases h with
  | absent => exact ⟨[], rfl, fun _ => .absent⟩
  | colon blanks =>
      obtain ⟨behind, rfl, areBlanks⟩ := isLocal_blanks blanks
      exact ⟨_ :: behind, rfl, fun rest' => .colon (areBlanks rest')⟩
  | integer blanks spelling =>
      obtain ⟨behind, rfl, areBlanks⟩ := isLocal_blanks blanks
      obtain ⟨word, rfl, spells⟩ := isLocal_integer _ spelling
      refine ⟨.char ':' :: (behind ++ word), by simp, fun rest' => ?_⟩
      simp only [List.append_assoc, List.cons_append]
      exact .integer (areBlanks _) (spells rest')

/-- Selectors behind a dot are local, wildcards and names alike. -/
theorem isLocal_dotted (selector : Segment) : IsLocal (Dotted · selector ·) := by
  intro t rest h
  cases h with
  | wildcard => exact ⟨[_], rfl, fun _ => .wildcard⟩
  | name spelling =>
      obtain ⟨word, rfl, spells⟩ := isLocal_memberName _ spelling
      exact ⟨word, rfl, fun rest' => .name (spells rest')⟩

section Nesting

variable {Literal Literal' : Production Value} {Nested Nested' : Production Expression}
  (literals : ∀ value, Carries (Literal · value ·) (Literal' · value ·))
  (nested : ∀ e, Carries (Nested · e ·) (Nested' · e ·))

include nested

/-- Selectors are carried over when the filters nested in them are. -/
theorem carries_selector (selector : Segment)
    : Carries (Selector Nested · selector ·) (Selector Nested' · selector ·) := by
  intro t rest h
  cases h with
  | name spelling =>
      obtain ⟨word, rfl, spells⟩ := isLocal_quotedString _ spelling
      exact ⟨word, rfl, fun rest' => .name (spells rest')⟩
  | wildcard => exact ⟨[_], rfl, fun _ => .wildcard⟩
  | index spelling =>
      obtain ⟨word, rfl, spells⟩ := isLocal_integer _ spelling
      exact ⟨word, rfl, fun rest' => .index (spells rest')⟩
  | slice hasStart blanks hasStop hasStep =>
      obtain ⟨start, rfl, spellsStart⟩ := isLocal_bound _ hasStart
      obtain ⟨behind, rfl, areBlanks⟩ := isLocal_blanks blanks
      obtain ⟨stop, rfl, spellsStop⟩ := isLocal_bound _ hasStop
      obtain ⟨step, rfl, spellsStep⟩ := isLocal_sliceStep _ hasStep
      refine ⟨start ++ .char ':' :: (behind ++ (stop ++ step)), by simp, fun rest' => ?_⟩
      simp only [List.append_assoc, List.cons_append]
      exact .slice (spellsStart _) (areBlanks _) (spellsStop _) (spellsStep rest')
  | filter blanks spelling isTest =>
      obtain ⟨behind, rfl, areBlanks⟩ := isLocal_blanks blanks
      obtain ⟨word, rfl, spells⟩ := nested _ spelling
      refine ⟨.char '?' :: (behind ++ word), by simp, fun rest' => ?_⟩
      simp only [List.append_assoc, List.cons_append]
      exact .filter (areBlanks _) (spells rest') isTest

/-- A selection in brackets is carried over with each of its selectors. -/
theorem carries_brackets (selection : Segment)
    : Carries (Brackets Nested · selection ·) (Brackets Nested' · selection ·) := by
  intro t rest h
  obtain ⟨_, _, rfl, spelling, rfl⟩ := brackets_iff.mp h
  obtain ⟨word, rfl, spells⟩ := carries_listed (carries_selector nested) _ spelling
  refine ⟨.char '[' :: (word ++ [.char ']']), by simp, fun rest' => ?_⟩
  simp only [List.append_assoc, List.cons_append]
  exact brackets_iff.mpr ⟨_, _, rfl, spells _, rfl⟩

theorem carries_segmentGroup (group : List Segment)
    : Carries (SegmentGroup Nested · group ·) (SegmentGroup Nested' · group ·) := by
  intro t rest h
  cases h with
  | dotted spelling =>
      obtain ⟨word, rfl, spells⟩ := isLocal_dotted _ spelling
      exact ⟨_ :: word, rfl, fun rest' => .dotted (spells rest')⟩
  | brackets spelling =>
      obtain ⟨word, rfl, spells⟩ := carries_brackets nested _ spelling
      exact ⟨word, rfl, fun rest' => .brackets (spells rest')⟩
  | dottedDescent spelling =>
      obtain ⟨word, rfl, spells⟩ := isLocal_dotted _ spelling
      exact ⟨_ :: _ :: word, rfl, fun rest' => .dottedDescent (spells rest')⟩
  | bracketsDescent spelling =>
      obtain ⟨word, rfl, spells⟩ := carries_brackets nested _ spelling
      exact ⟨_ :: _ :: word, rfl, fun rest' => .bracketsDescent (spells rest')⟩

theorem carries_spacedGroup (group : List Segment)
    : Carries (SpacedGroup Nested · group ·) (SpacedGroup Nested' · group ·) := by
  intro t rest h
  obtain ⟨blanks, spelling⟩ := h
  obtain ⟨before, rfl, areBlanks⟩ := isLocal_blanks blanks
  obtain ⟨word, rfl, spells⟩ := carries_segmentGroup nested _ spelling
  refine ⟨before ++ word, by simp, fun rest' => ?_⟩
  rw [List.append_assoc]
  exact .mk (areBlanks _) (spells rest')

/-- Queries are carried over group by group. -/
theorem carries_segments (query : JsonPath.Query)
    : Carries (Segments Nested · query ·) (Segments Nested' · query ·) := by
  intro t rest h
  obtain ⟨spelling⟩ := h
  obtain ⟨word, rfl, spells⟩ := carries_repeated (carries_spacedGroup nested) _ spelling
  exact ⟨word, rfl, fun rest' => .mk (spells rest')⟩

-----------------------------------------------------------------------------------------
-- Expressions
-----------------------------------------------------------------------------------------

/-- Arguments in parentheses are carried over as the list they are. -/
theorem carries_arguments (es : List Expression)
    : Carries (Arguments Nested · es ·) (Arguments Nested' · es ·) := by
  intro t rest h
  cases h with
  | none blanks =>
      obtain ⟨before, rfl, areBlanks⟩ := isLocal_blanks blanks
      refine ⟨before ++ [.char ')'], by simp, fun rest' => ?_⟩
      rw [List.append_assoc]
      exact .none (areBlanks _)
  | some spelling =>
      obtain ⟨word, rfl, spells⟩ := carries_listed nested _ spelling
      refine ⟨word ++ [.char ')'], by simp, fun rest' => ?_⟩
      rw [List.append_assoc]
      exact .some (spells _)

/-- A parenthesised expression is carried over with what it encloses. -/
theorem carries_parentheses (e : Expression)
    : Carries (Parentheses Nested · e ·) (Parentheses Nested' · e ·) := by
  intro t rest h
  obtain ⟨before, spelling, isTest, after⟩ := h
  obtain ⟨blanks, rfl, areBlanks⟩ := isLocal_blanks before
  obtain ⟨word, rfl, spells⟩ := nested _ spelling
  obtain ⟨blanks', rfl, areBlanks'⟩ := isLocal_blanks after
  refine ⟨.char '(' :: (blanks ++ (word ++ (blanks' ++ [.char ')']))), by simp, fun rest' => ?_⟩
  simp only [List.append_assoc, List.cons_append]
  exact .mk (areBlanks _) (spells _) isTest (areBlanks' _)

include literals

/-- Operands are carried over when the literals and the nested expressions are, by cases on the
production.
-/
theorem carries_primary (e : Expression)
    : Carries (Primary Literal Nested · e ·) (Primary Literal' Nested' · e ·) := by
  intro t rest h
  cases h with
  | literal spelling =>
      obtain ⟨word, rfl, spells⟩ := literals _ spelling
      exact ⟨word, rfl, fun rest' => .literal (spells rest')⟩
  | current spelling =>
      obtain ⟨word, rfl, spells⟩ := carries_segments nested _ spelling
      exact ⟨_ :: word, rfl, fun rest' => .current (spells rest')⟩
  | root spelling =>
      obtain ⟨word, rfl, spells⟩ := carries_segments nested _ spelling
      exact ⟨_ :: word, rfl, fun rest' => .root (spells rest')⟩
  | @call name _ _ _ isName spelling fitCall =>
      obtain ⟨word, rfl, spells⟩ := carries_arguments nested _ spelling
      refine ⟨name ++ .char '(' :: word, by simp, fun rest' => ?_⟩
      rw [List.append_assoc]
      exact .call isName (spells rest') fitCall

/-- Comparisons, tests and negations are carried over with their operands. -/
theorem carries_basic (e : Expression)
    : Carries (Basic Literal Nested · e ·) (Basic Literal' Nested' · e ·) := by
  intro t rest h
  cases h with
  | negatedParentheses blanks spelling =>
      obtain ⟨before, rfl, areBlanks⟩ := isLocal_blanks blanks
      obtain ⟨word, rfl, spells⟩ := carries_parentheses nested _ spelling
      refine ⟨.char '!' :: (before ++ word), by simp, fun rest' => ?_⟩
      simp only [List.append_assoc, List.cons_append]
      exact .negatedParentheses (areBlanks _) (spells rest')
  | negatedPrimary blanks spelling notLiteral isTest =>
      obtain ⟨before, rfl, areBlanks⟩ := isLocal_blanks blanks
      obtain ⟨word, rfl, spells⟩ := carries_primary literals nested _ spelling
      refine ⟨.char '!' :: (before ++ word), by simp, fun rest' => ?_⟩
      simp only [List.append_assoc, List.cons_append]
      exact .negatedPrimary (areBlanks _) (spells rest') notLiteral isTest
  | parentheses spelling =>
      obtain ⟨word, rfl, spells⟩ := carries_parentheses nested _ spelling
      exact ⟨word, rfl, fun rest' => .parentheses (spells rest')⟩
  | primary spelling =>
      obtain ⟨word, rfl, spells⟩ := carries_primary literals nested _ spelling
      exact ⟨word, rfl, fun rest' => .primary (spells rest')⟩
  | @comparison _ _ _ comparator _ _ _ _ hasLeft before after hasRight leftOk rightOk =>
      obtain ⟨left, rfl, spellsLeft⟩ := carries_primary literals nested _ hasLeft
      obtain ⟨blanks, rfl, areBlanks⟩ := isLocal_blanks before
      obtain ⟨blanks', rfl, areBlanks'⟩ := isLocal_blanks after
      obtain ⟨right, rfl, spellsRight⟩ := carries_primary literals nested _ hasRight
      refine ⟨left ++ (blanks ++ (comparator.text ++ (blanks' ++ right))), by simp,
        fun rest' => ?_⟩
      simp only [List.append_assoc]
      exact .comparison (spellsLeft _) (areBlanks _) (areBlanks' _) (spellsRight rest') leftOk
        rightOk

/-- Conjunctions are carried over with the operands between which `&&` stands. -/
theorem carries_conjunction (e : Expression)
    : Carries (Conjunction Literal Nested · e ·) (Conjunction Literal' Nested' · e ·) := by
  intro t rest h
  obtain ⟨_, spelling, areTests, rfl⟩ := conjunction_iff.mp h
  obtain ⟨word, rfl, spells⟩ := carries_joined (carries_basic literals nested) _ _ spelling
  exact ⟨word, rfl, fun rest' => conjunction_iff.mpr ⟨_, spells rest', areTests, rfl⟩⟩

/-- Disjunctions are carried over with the conjunctions between which `||` stands. -/
theorem carries_disjunction (e : Expression)
    : Carries (Disjunction Literal Nested · e ·) (Disjunction Literal' Nested' · e ·) := by
  intro t rest h
  obtain ⟨_, spelling, areTests, rfl⟩ := disjunction_iff.mp h
  obtain ⟨word, rfl, spells⟩ := carries_joined (carries_conjunction literals nested) _ _ spelling
  exact ⟨word, rfl, fun rest' => disjunction_iff.mpr ⟨_, spells rest', areTests, rfl⟩⟩

end Nesting

/-- A logical expression is one with more levels of nesting too, by induction on them. -/
theorem carries_logical {Literal Literal' : Production Value}
    (literals : ∀ value, Carries (Literal · value ·) (Literal' · value ·)) {depth more : Nat}
    (h : depth ≤ more) (e : Expression)
    : Carries (Logical Literal depth · e ·) (Logical Literal' more · e ·) := by
  induction depth generalizing more e with
  | zero =>
      intro t rest h
      cases h
  | succ depth ih =>
      cases more with
      | zero => cases h
      | succ more => exact carries_disjunction literals (ih (Nat.le_of_succ_le_succ h)) e

/-- Filters whose literals can be read are filters of the grammar. -/
theorem IsFilter.of_short {depth : Nat} {t : Text} {e : Expression}
    (h : IsFilter ShortLiteral depth t e)
    : IsFilter Literal depth t e := by
  have carries := carries_logical carries_shortLiteral (Nat.le_refl depth)
  cases h with
  | plain before spelling isTest after =>
      exact .plain before ((carries _).widen spelling) isTest after
  | marked before between spelling isTest after =>
      exact .marked before between ((carries _).widen spelling) isTest after

/-- Queries whose literals can be read are queries of the grammar. -/
theorem IsQuery.of_short {depth : Nat} {t : Text} {query : JsonPath.Query}
    (h : IsQuery ShortLiteral depth t query)
    : IsQuery Literal depth t query := by
  obtain ⟨spelling⟩ := h
  have carries := carries_logical carries_shortLiteral (Nat.le_refl depth)
  exact .mk ((carries_segments carries query).widen spelling)

/-- Expressions are local at every depth, as what is carried over to themselves. -/
theorem isLocal_logical (depth : Nat) (e : Expression)
    : IsLocal (Logical Literal depth · e ·) :=
  fun h => carries_logical carries_literal (Nat.le_refl depth) e h

end JsonPath.Grammar
