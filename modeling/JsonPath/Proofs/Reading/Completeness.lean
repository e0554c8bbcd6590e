import JsonPath.Proofs.Reading.SegmentCompleteness

/-! Whatever the grammar spells of expressions is read, as long as what follows cannot belong
to it and no literal in it is spelled in a way that is not read back. The reader of nested
expressions is complete by assumption until `isReader_logical` discharges it by induction on
the levels of nesting.
-/

namespace JsonPath.Syntax

open Grammar Outcome

/-- Primary expressions that are literals are read when their values are good. -/
structure ReadsLiterals (Bad : Fault → Prop) (good : Value → Bool)
    (Literal : Production Value) : Prop
    extends IsProper offPrimary Literal where
  complete
    : ∀ {limit nested t value rest},
      Literal t value rest
      → t.length ≤ limit
      → EndsAt afterPrimary rest
      → Yields Bad (good value) (primary limit nested t) (.literal value, rest)

section Nesting

variable {Bad : Fault → Prop} {good : Value → Bool} {limit : Nat}
  {nested : Text → Except Fault (Expression × Text)}
  {Literal : Production Value} {Nested : Production Expression}

-----------------------------------------------------------------------------------------
-- Calls and primary expressions
-----------------------------------------------------------------------------------------

/-- An argument is read with the blanks in front of it, up to blanks behind it. -/
theorem argument_complete (reader : ReadsNested Bad good limit nested Nested) {t start rest : Text}
    {e : Expression} (blanks : Blanks t start) (h : Nested start e rest)
    (bound : start.length ≤ limit) (ends : EndsAt [',', ')'] rest)
    : ∃ found stop,
      found.1 = e
      ∧ Text.skipBlanks stop = Text.skipBlanks rest
      ∧ Yields Bad (e.allLiterals good) (argument nested t) (found, stop) := by
  refine ⟨(e, start), rest, rfl, rfl, ?_⟩
  rw [argument, skipBlanks_eq blanks (reader.starts h).isSolid]
  exact (reader.complete h bound (ends.mono (by decide))).bind_ok rfl

/-- A list of expressions starts, behind blanks, with none of the characters that start no
expression.
-/
theorem listed_skipBlanks {Item : Production Expression} (proper : IsProper offExpression Item)
    {t rest : Text} {es : List Expression} (h : Listed Item t es rest)
    : StartsOff offExpression (Text.skipBlanks t)
      ∧ Listed Item (Text.skipBlanks t) es rest := by
  cases h with
  | one before spelling after =>
      rw [skipBlanks_eq before (proper.starts spelling).isSolid]
      exact ⟨proper.starts spelling, .one .none spelling after⟩
  | more before spelling after others =>
      rw [skipBlanks_eq before (proper.starts spelling).isSolid]
      exact ⟨proper.starts spelling, .more .none spelling after others⟩

theorem length_skipBlanks_le (t : Text) : (Text.skipBlanks t).length ≤ t.length :=
  length_le_of_blanks (blanks_skipBlanks t)

/-- The arguments of a call are read as they are spelled, by the completeness of lists. -/
theorem arguments_complete (reader : ReadsNested Bad good limit nested Nested) (name start : Text)
    {t rest : Text} {es : List Expression} (h : Arguments Nested t es rest)
    (bound : t.length ≤ limit)
    : ∃ found,
      found.map (·.1) = es
      ∧ Yields Bad (es.all (Expression.allLiterals good)) (arguments limit nested name start t)
          (found, rest) := by
  cases h with
  | none blanks =>
      refine ⟨[], rfl, .of_ok ?_⟩
      simp only [arguments, skipBlanks_eq blanks (isSolid_cons rfl)]
      rfl
  | some spelling =>
      obtain ⟨starts, listed⟩ := listed_skipBlanks reader.toIsProper spelling
      have shorter := length_skipBlanks_le t
      obtain ⟨found, stop, rfl, sameStop, reads⟩ :=
        listed_complete (f := Prod.fst) ')' (by decide) (argument_complete reader)
          reader.length_lt listed (by omega) (by omega : _ ≤ limit)
          (.cons (by simp) rfl)
      rw [isSolid_cons rfl] at sameStop
      refine ⟨found, rfl, ?_⟩
      unfold arguments
      split
      next eq => exact absurd (by decide) (starts.ne eq)
      next =>
        refine reads.bind_ok ?_
        simp only [sameStop]
        rfl

/-- Primary expressions that are told from the others by their first character are words and
calls.
-/
theorem primary_eq_callOrWord {t : Text} (starts : StartsOff ['@', '$', '"', '\'', '-'] t)
    (noDigit : Avoids CodePoint.isNumericDigit t)
    : primary limit nested t = callOrWord limit nested t := by
  obtain ⟨c, rest, rfl, _, notOther⟩ := starts
  have notDigit := noDigit c rest rfl
  simp only [List.mem_cons, List.not_mem_nil, or_false, forall_eq_or_imp, forall_eq]
    at notOther
  simp [primary, notOther, notDigit]

/-- What is spelled as a number is read as one: its first character is a digit or a minus. -/
theorem primary_of_numeric {t rest : Text} {literal : NumberLiteral}
    (h : Numeric t literal rest)
    : primary limit nested t = (do
        let (n, rest) ← number t
        return (.literal (.number n), rest)) := by
  obtain ⟨sign, whole, _, _⟩ := h
  cases sign with
  | present => rfl
  | absent =>
      obtain ⟨c, after, eq, isDigit⟩ := head_of_whole whole _
      rw [eq]
      have isNumeric := isNumericDigit_of_isDigit isDigit
      obtain ⟨_, _, eq, _, notOther⟩ : StartsOff ['@', '$', '"', '\''] (c :: after) :=
        starts_of_isDigit isDigit (by decide)
      obtain ⟨rfl, rfl⟩ := List.cons.inj eq
      simp only [List.mem_cons, List.not_mem_nil, or_false, forall_eq_or_imp, forall_eq]
        at notOther
      simp [primary, notOther, isNumeric]

/-- Where a name stands, a call or a constant is read. -/
theorem primary_of_isFunctionName {name : Text} (h : IsFunctionName name) (rest : Text)
    : primary limit nested (name ++ rest) = callOrWord limit nested (name ++ rest) := by
  obtain ⟨first, _⟩ := h
  refine primary_eq_callOrWord (starts_of_isLower first (by decide)) ?_
  rintro c after eq
  obtain ⟨rfl, -⟩ := List.cons.inj eq
  exact isNumericDigit_of_isLower first

/-- A call whose arguments fit is read as it is spelled. -/
theorem call_complete (reader : ReadsNested Bad good limit nested Nested) {name t rest : Text}
    {es : List Expression} (isName : IsFunctionName name)
    (spelling : Arguments Nested t es rest) (fitCall : Expression.FitCall name es)
    (bound : t.length ≤ limit)
    : Yields Bad (es.all (Expression.allLiterals good))
        (callOrWord limit nested (name ++ .char '(' :: t)) (.call name es, rest) := by
  have noWord : Avoids isWordPart (.char '(' :: t) := by
    rintro c after eq
    obtain ⟨rfl, -⟩ := List.cons.inj eq
    decide
  have notEmpty : name.isEmpty = false := by
    cases isName
    rfl
  obtain ⟨found, rfl, reads⟩ :=
    arguments_complete reader name (name ++ .char '(' :: t) spelling bound
  simp only [callOrWord, word_complete isName noWord, notEmpty]
  refine reads.bind_ok ?_
  simp only [checkCall_eq_ok.mpr fitCall]
  rfl

/-- Operands are read as they are spelled, one case for each of the productions. -/
theorem isReader_primary (literals : ReadsLiterals Bad good Literal)
    (reader : ReadsNested Bad good limit nested Nested)
    : IsReader Bad limit offPrimary afterPrimary (Expression.allLiterals good)
        (primary limit nested) (Primary Literal Nested) where
  toIsProper := isProper_primary literals.toIsProper reader.toIsProper
  complete h bound ends := by
    cases h with
    | literal spelling => exact literals.complete spelling bound ends
    | current spelling =>
        have reads := segments_complete reader spelling (Nat.le_of_succ_le bound) ends
        simp only [Expression.allLiterals, segmentsAllLiterals_eq]
        exact reads.bind_ok rfl
    | root spelling =>
        have reads := segments_complete reader spelling (Nat.le_of_succ_le bound) ends
        simp only [Expression.allLiterals, segmentsAllLiterals_eq]
        exact reads.bind_ok rfl
    | call isName spelling fitCall =>
        rw [List.length_append, List.length_cons] at bound
        rw [primary_of_isFunctionName isName]
        simp only [Expression.allLiterals, expressionsAllLiterals_eq]
        exact call_complete reader isName spelling fitCall (by omega)

-----------------------------------------------------------------------------------------
-- Operators
-----------------------------------------------------------------------------------------

/-- What stands in parentheses is read up to the one that closes them. -/
theorem parenthesis_complete (reader : ReadsNested Bad good limit nested Nested) {t rest : Text}
    {e : Expression} (start : Text) (h : Parentheses Nested (.char '(' :: t) e rest)
    (bound : t.length ≤ limit)
    : Yields Bad (e.allLiterals good) (parenthesis nested start t) (e, rest) := by
  obtain ⟨before, spelling, isTest, after⟩ := h
  have shorter := length_le_of_blanks before
  rw [parenthesis, skipBlanks_eq before (reader.starts spelling).isSolid]
  refine (reader.complete spelling (by omega)
    (.of_blanks after (.cons (by decide) rfl))).bind_ok ?_
  simp only [checkTest_eq_ok.mpr isTest, ok_bind,
    skipBlanks_eq after (isSolid_cons rfl)]
  rfl

/-- In front of a text that avoids a class without blanks, blanks avoid it as well. -/
theorem avoids_of_blanks {p : CodePoint → Bool} {t start : Text} (blanks : Blanks t start)
    (notBlank : ∀ c, c.isBlank → p c = false) (avoids : Avoids p start)
    : Avoids p t := by
  cases blanks with
  | none => exact avoids
  | more blank _ =>
      rintro c rest eq
      obtain ⟨rfl, -⟩ := List.cons.inj eq
      exact notBlank _ blank

/-- A text that starts off from a character avoids it. -/
theorem StartsOff.avoids {others : List Char} {t : Text} {d : Char} (h : StartsOff others t)
    (member : d ∈ others)
    : Avoids (· = .char d) t := by
  obtain ⟨c, rest, rfl, _, notOther⟩ := h
  rintro c after eq
  obtain ⟨rfl, -⟩ := List.cons.inj eq
  simpa using notOther d member

theorem negated_of_parentheses (reader : ReadsNested Bad good limit nested Nested)
    {t rest : Text} {e : Expression} (h : Parentheses Nested t e rest) (bound : t.length ≤ limit)
    : Yields Bad (e.allLiterals good) (negated limit nested t) (.negation e, rest) := by
  obtain ⟨behind, rfl⟩ := head_of_parentheses h
  have isTest : e.IsTest := by
    cases h
    assumption
  refine (parenthesis_complete reader _ h (Nat.le_of_succ_le bound)).bind_ok ?_
  simp only [negated.checked, checkTest_eq_ok.mpr isTest]
  rfl

/-- Behind a negation, an operand is read that is a test. -/
theorem negated_of_primary (literals : ReadsLiterals Bad good Literal)
    (reader : ReadsNested Bad good limit nested Nested) {t rest : Text} {e : Expression}
    (h : Primary Literal Nested t e rest) (isPrimary : e.isPrimary) (isTest : e.IsTest)
    (bound : t.length ≤ limit) (ends : EndsAt afterPrimary rest)
    : Yields Bad (e.allLiterals good) (negated limit nested t) (.negation e, rest) := by
  have primaryReader := isReader_primary literals reader
  unfold negated
  split
  next => exact absurd (by decide) ((primaryReader.starts h).ne rfl)
  next =>
    refine (primaryReader.complete h bound ends).bind_ok ?_
    simp only [isPrimary, negated.checked, checkTest_eq_ok.mpr isTest]
    rfl

/-- A comparison, or a primary expression that no operator follows. -/
theorem comparison_of_primary (literals : ReadsLiterals Bad good Literal)
    (reader : ReadsNested Bad good limit nested Nested) {t rest : Text} {e : Expression}
    (h : Primary Literal Nested t e rest) (bound : t.length ≤ limit)
    (ends : EndsAt afterBasic rest)
    : Yields Bad (e.allLiterals good) (comparison limit nested t) (e, rest) := by
  have noOperator : comparator? (Text.skipBlanks rest) = none := by
    refine comparator?_eq_none ?_
    rintro c after eq
    obtain ⟨d, member, rfl⟩ := ends c after eq
    have noneOfThem : ∀ d ∈ afterBasic, d ∉ ['=', '!', '<', '>'] := by decide
    simpa using noneOfThem d member
  refine ((isReader_primary literals reader).complete h bound
    (ends.mono (by decide))).bind_ok ?_
  simp only [noOperator]
  rfl

/-- Both sides of a comparison are read, with the longest operator between them. -/
theorem comparison_complete (literals : ReadsLiterals Bad good Literal)
    (reader : ReadsNested Bad good limit nested Nested)
    {t afterLeft afterComparator start rest : Text} {left right : Expression}
    {comparator : Comparator} (hasLeft : Primary Literal Nested t left afterLeft)
    (before : Blanks afterLeft (comparator.text ++ afterComparator))
    (after : Blanks afterComparator start) (hasRight : Primary Literal Nested start right rest)
    (leftComparable : left.IsComparable) (rightComparable : right.IsComparable)
    (bound : t.length ≤ limit) (ends : EndsAt afterPrimary rest)
    : Yields Bad (left.allLiterals good && right.allLiterals good) (comparison limit nested t)
        (.comparison comparator left right, rest) := by
  have primaryReader := isReader_primary literals reader
  have startsRight := primaryReader.starts hasRight
  have noEquals : Avoids (· = .char '=') afterComparator :=
    avoids_of_blanks after (blank_avoids (by decide)) (startsRight.avoids (by decide))
  have lessLeft := primaryReader.length_lt hasLeft
  have lessBefore := length_le_of_blanks before
  have lessAfter := length_le_of_blanks after
  rw [List.length_append] at lessBefore
  have endsLeft : EndsAt afterPrimary afterLeft := by
    refine .of_blanks before ?_
    cases comparator <;> exact .cons (by decide) rfl
  have solid : IsSolid (comparator.text ++ afterComparator) := by
    cases comparator <;> exact isSolid_cons rfl
  refine (primaryReader.complete hasLeft bound endsLeft).bind ?_
  simp only [skipBlanks_eq before solid, comparator?_complete noEquals,
    skipBlanks_eq after startsRight.isSolid]
  refine (primaryReader.complete hasRight (by omega) ends).bind_ok ?_
  simp only [checkComparable_eq_ok.mpr leftComparable,
    checkComparable_eq_ok.mpr rightComparable]
  rfl

/-- Negations are told by their first character from all comparisons. -/
theorem basic_of_negation {t : Text} (noEquals : Avoids (· = .char '=') t)
    : basic limit nested (.char '!' :: t) = negated limit nested (Text.skipBlanks t) := by
  unfold basic
  split
  next eq => simpa using noEquals _ _ (List.cons.inj eq).2
  next eq =>
    obtain ⟨-, rfl⟩ := List.cons.inj eq
    rfl
  next eq => cases eq
  next notNegation _ => exact absurd rfl (notNegation t)

/-- What starts with neither a negation nor a parenthesis is read as an operand or a
comparison.
-/
theorem basic_of_primary {t : Text} (starts : StartsOff offPrimary t)
    : basic limit nested t = comparison limit nested t := by
  unfold basic
  split
  next => rfl
  next => exact absurd (by decide) (starts.ne rfl)
  next => exact absurd (by decide) (starts.ne rfl)
  next => rfl

/-- Basic expressions are read as they are spelled, one case for each of the productions. -/
theorem isReader_basic (literals : ReadsLiterals Bad good Literal)
    (reader : ReadsNested Bad good limit nested Nested)
    : IsReader Bad limit offExpression afterBasic (Expression.allLiterals good)
        (basic limit nested) (Basic Literal Nested) where
  toIsProper := isProper_basic literals.toIsProper reader.toIsProper
  complete h bound ends := by
    have properPrimary := isProper_primary literals.toIsProper reader.toIsProper
    have endsPrimary : EndsAt afterPrimary _ := ends.mono (by decide)
    cases h with
    | @negatedParentheses _ start _ _ blanks spelling =>
        have lessBlanks := length_le_of_blanks blanks
        rw [List.length_cons] at bound
        have starts : StartsOff ['='] start := by
          obtain ⟨_, rfl⟩ := head_of_parentheses spelling
          exact starts_of_char rfl (by decide)
        rw [basic_of_negation
            (avoids_of_blanks blanks (blank_avoids (by decide)) (starts.avoids (by decide))),
          skipBlanks_eq blanks starts.isSolid]
        exact negated_of_parentheses reader spelling (by omega)
    | negatedPrimary blanks spelling isPrimary isTest =>
        have lessBlanks := length_le_of_blanks blanks
        rw [List.length_cons] at bound
        have starts := properPrimary.starts spelling
        rw [basic_of_negation
            (avoids_of_blanks blanks (blank_avoids (by decide)) (starts.avoids (by decide))),
          skipBlanks_eq blanks starts.isSolid]
        exact negated_of_primary literals reader spelling isPrimary isTest (by omega) endsPrimary
    | parentheses spelling =>
        obtain ⟨behind, rfl⟩ := head_of_parentheses spelling
        exact parenthesis_complete reader _ spelling (Nat.le_of_succ_le bound)
    | primary spelling =>
        rw [basic_of_primary (properPrimary.starts spelling)]
        exact comparison_of_primary literals reader spelling bound ends
    | comparison hasLeft before after hasRight leftComparable rightComparable =>
        rw [basic_of_primary (properPrimary.starts hasLeft)]
        exact comparison_complete literals reader hasLeft before after hasRight leftComparable
          rightComparable bound endsPrimary

/-- Operands with an operator between them are read, and have the truth values they need. -/
theorem operands_complete {operator : Char} {stops : List Char}
    {operand : Text → Except Fault (Expression × Text)} {Operand : Production Expression}
    (notBlank : (CodePoint.char operator).isBlank = false) (noOperator : operator ∉ stops)
    (reader : IsReader Bad limit offExpression (operator :: stops) (Expression.allLiterals good)
      operand Operand)
    {t rest : Text} {es : List Expression}
    (h : Joined [.char operator, .char operator] Operand t es rest)
    (areTests : es.length ≠ 1 → ∀ e ∈ es, e.IsTest) (bound : t.length ≤ limit)
    (ends : EndsAt stops rest)
    : Yields Bad (es.all (Expression.allLiterals good)) (operands limit operator operand t)
        (es, rest) := by
  refine (joined_complete notBlank reader noOperator h bound bound ends).bind_ok ?_
  dsimp only
  split
  next => rfl
  next several =>
    rw [forM_checkTest_eq_ok.mpr (areTests several)]
    rfl

/-- Conjunctions are read as they are spelled, by the completeness of operands in a row. -/
theorem isReader_conjunction (literals : ReadsLiterals Bad good Literal)
    (reader : ReadsNested Bad good limit nested Nested)
    : IsReader Bad limit offExpression afterConjunction (Expression.allLiterals good)
        (conjunction limit nested) (Conjunction Literal Nested) where
  toIsProper := isProper_conjunction literals.toIsProper reader.toIsProper
  complete h bound ends := by
    obtain ⟨_, spelling, areTests, rfl⟩ := conjunction_iff.mp h
    rw [Expression.allLiterals_conjoin]
    exact (operands_complete (by decide) (by decide) (isReader_basic literals reader) spelling
      areTests bound ends).bind_ok rfl

/-- Disjunctions are read as they are spelled, so that they can be nested again. -/
theorem isReader_disjunction (literals : ReadsLiterals Bad good Literal)
    (reader : ReadsNested Bad good limit nested Nested)
    : ReadsNested Bad good limit (disjunction limit nested) (Disjunction Literal Nested) where
  toIsProper := isProper_disjunction literals.toIsProper reader.toIsProper
  complete h bound ends := by
    obtain ⟨_, spelling, areTests, rfl⟩ := disjunction_iff.mp h
    rw [Expression.allLiterals_disjoin]
    exact (operands_complete (by decide) (by decide) (isReader_conjunction literals reader)
      spelling areTests bound ends).bind_ok rfl

end Nesting

-----------------------------------------------------------------------------------------
-- Whole texts
-----------------------------------------------------------------------------------------

section Literals

variable {Bad : Fault → Prop} {good : Value → Bool} {Literal : Production Value}

/-- Logical expressions are read completely at every level of nesting, by induction on it. -/
theorem isReader_logical (literals : ReadsLiterals Bad good Literal) (limit depth : Nat)
    : ReadsNested Bad good limit (logical limit depth) (Logical Literal depth) := by
  induction depth with
  | zero => exact { isProper_logical literals.toIsProper 0 with complete := nofun }
  | succ depth ih => exact isReader_disjunction literals ih

/-- A text of the grammar is read as the query it spells, if its literals are good. -/
theorem query_complete (literals : ReadsLiterals Bad good Literal) {depth : Nat} {t : Text}
    {found : Query} (h : IsQuery Literal depth t found)
    : Yields Bad (found.allLiterals good) (query depth t) found := by
  obtain ⟨spelling⟩ := h
  exact (segments_complete (isReader_logical literals _ depth) spelling (Nat.le_succ _)
    (.nil _)).bind_ok rfl

/-- The body of a filter is read up to the end of the text. -/
theorem filterFrom_complete (literals : ReadsLiterals Bad good Literal) {limit depth : Nat}
    {start stop : Text} {e : Expression} (spelling : Logical Literal depth start e stop)
    (isTest : e.IsTest) (after : Blanks stop []) (bound : start.length ≤ limit)
    : Yields Bad (e.allLiterals good) (filterFrom limit depth start) e := by
  have reader := isReader_logical literals limit depth
  have notEmpty : start.isEmpty = false := by
    obtain ⟨_, _, rfl, _⟩ := reader.starts spelling
    rfl
  simp only [filterFrom, notEmpty]
  refine (reader.complete spelling bound (.of_blanks after (.nil _))).bind_ok ?_
  simp only [checkTest_eq_ok.mpr isTest, ok_bind, skipBlanks_eq after isSolid_nil]
  rfl

/-- A filter of the grammar is read as the expression it spells, if its literals are good. -/
theorem filter_complete (literals : ReadsLiterals Bad good Literal) {depth : Nat} {t : Text}
    {found : Expression} (h : IsFilter Literal depth t found)
    : Yields Bad (found.allLiterals good) (filter depth t) found := by
  have proper := isProper_logical literals.toIsProper depth
  cases h with
  | plain before spelling isTest after =>
      have starts := proper.starts spelling
      unfold filter
      split
      next eq =>
        rw [skipBlanks_eq before starts.isSolid] at eq
        exact absurd (by decide) (starts.ne eq)
      next =>
        rw [skipBlanks_eq before starts.isSolid]
        exact filterFrom_complete literals spelling isTest after (length_le_of_blanks before)
  | marked before between spelling isTest after =>
      have lessBefore := length_le_of_blanks before
      have lessBetween := length_le_of_blanks between
      rw [List.length_cons] at lessBefore
      simp only [filter, skipBlanks_eq before (isSolid_cons rfl),
        skipBlanks_eq between (proper.starts spelling).isSolid]
      exact filterFrom_complete literals spelling isTest after (by omega)

end Literals

/-- Literals are read unless they are integers of too many digits. -/
theorem readsLiterals : ReadsLiterals Fault.IsOversized Value.isWritable Literal where
  toIsProper := isProper_literal
  complete {limit nested t value rest} h bound ends := by
    have noWord : Avoids isWordPart rest := ends.avoids (blank_avoids (by decide)) (by decide)
    have noCall : ∀ after, rest ≠ .char '(' :: after := by
      rintro after rfl
      exact absurd (ends.mem (isSolid_cons rfl)) (by decide)
    have readWord {name : Text} {value : Value} (isName : IsFunctionName name)
        (found : words.lookup name = some value)
        : primary limit nested (name ++ rest) = .ok (.literal value, rest) := by
      rw [primary_of_isFunctionName isName, callOrWord, word_complete isName noWord]
      split
      next eq => exact absurd (Prod.mk.inj eq).2 (noCall _)
      next eq =>
        obtain ⟨rfl, rfl⟩ := Prod.mk.inj eq
        rw [found]
    cases h with
    | string spelling =>
        obtain ⟨isQuote, characters⟩ := spelling
        have read {start : Text} := stringRest_complete start isQuote characters rfl
          (Nat.le_of_succ_le bound)
        refine .of_ok ?_
        rcases isQuote with rfl | rfl <;> simp only [primary, read] <;> rfl
    | number spelling =>
        have noPart : Avoids isNumberPart rest :=
          ends.avoids (blank_avoids (by decide)) (by decide)
        rw [primary_of_numeric spelling]
        exact (number_complete spelling noPart).bind_ok rfl
    | true => exact .of_ok (readWord isFunctionName_true rfl)
    | false => exact .of_ok (readWord isFunctionName_false rfl)
    | null => exact .of_ok (readWord isFunctionName_null rfl)

/-- Literals that are no integers of too many digits are all read. -/
theorem readsLiterals_short {Bad : Fault → Prop}
    : ReadsLiterals Bad (fun _ => true) ShortLiteral where
  toIsProper := isProper_shortLiteral
  complete {limit nested _ _ _} h bound ends := by
    obtain ⟨spelling, short⟩ := h
    have reads : Yields _ _ (primary limit nested _) _ :=
      readsLiterals.complete spelling bound ends
    rw [short] at reads
    exact .of_ok reads.eq_ok

end JsonPath.Syntax
