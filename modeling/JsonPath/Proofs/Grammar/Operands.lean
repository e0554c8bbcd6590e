import JsonPath.Proofs.Grammar.Query

/-! Where operands of `&&` and `||` stand in a filter. For each production in which logical
expressions are nested there is one with a focus: its spellings are those in which one of the
nested expressions is spelled with a focus again. The innermost focus is on adjacent operands
of one operator, which take up the text from `start` up to `stop`.
-/

namespace JsonPath.Grammar

-----------------------------------------------------------------------------------------
-- Items with a focus
-----------------------------------------------------------------------------------------

section Items

variable {α : Type} (Item InItem : Production α)

/-- Items one directly after another, one of them with a focus. -/
inductive InRepeated : Production (List α)
  | first {t item mid items rest} (inside : InItem t item mid)
    (others : Repeated Item mid items rest)
    : InRepeated t (item :: items) rest
  | later {t item mid items rest} (first : Item t item mid) (inside : InRepeated mid items rest)
    : InRepeated t (item :: items) rest

/-- Items with an operator between any two, one of them with a focus. -/
inductive InJoined (operator : Text) : Production (List α)
  | one {t item rest} (inside : InItem t item rest) : InJoined operator t [item] rest
  | first {t item afterItem behind next items rest} (inside : InItem t item afterItem)
    (before : Blanks afterItem (operator ++ behind)) (after : Blanks behind next)
    (others : Joined operator Item next items rest)
    : InJoined operator t (item :: items) rest
  | later {t item afterItem behind next items rest} (first : Item t item afterItem)
    (before : Blanks afterItem (operator ++ behind)) (after : Blanks behind next)
    (inside : InJoined operator next items rest)
    : InJoined operator t (item :: items) rest

/-- Items with commas between any two, one of them with a focus. -/
inductive InListed : Production (List α)
  | one {t first item last rest} (before : Blanks t first) (inside : InItem first item last)
    (after : Blanks last rest)
    : InListed t [item] rest
  | first {t first item last afterComma items rest} (before : Blanks t first)
    (inside : InItem first item last) (after : Blanks last (.char ',' :: afterComma))
    (others : Listed Item afterComma items rest)
    : InListed t (item :: items) rest
  | later {t first item last afterComma items rest} (before : Blanks t first)
    (spelling : Item first item last) (after : Blanks last (.char ',' :: afterComma))
    (inside : InListed afterComma items rest)
    : InListed t (item :: items) rest

/-- Items with an operator between any two, of which the ones of `run` take up the text from
`start` up to `stop`. Those in front of them are `front` and those behind them `back`.
-/
inductive Run (operator start stop : Text) : Text → List α → List α → List α → Text → Prop
  | last {run} (spelling : Joined operator Item start run stop)
    : Run operator start stop start [] run [] stop
  | followed {run behind next back rest} (spelling : Joined operator Item start run stop)
    (before : Blanks stop (operator ++ behind)) (after : Blanks behind next)
    (others : Joined operator Item next back rest)
    : Run operator start stop start [] run back rest
  | later {t item afterItem behind next front run back rest} (first : Item t item afterItem)
    (before : Blanks afterItem (operator ++ behind)) (after : Blanks behind next)
    (others : Run operator start stop next front run back rest)
    : Run operator start stop t (item :: front) run back rest

end Items

-----------------------------------------------------------------------------------------
-- Queries and expressions with a focus
-----------------------------------------------------------------------------------------

section Productions

variable (Literal : Production Value) (Nested Focus : Production Expression)

/-- A filter between brackets with a focus. -/
inductive InSelector : Production Segment
  | filter {t first test rest} (blanks : Blanks t first) (inside : Focus first test rest)
    (isTest : test.IsTest)
    : InSelector (.char '?' :: t) (.filter test) rest

/-- Selectors between brackets, one of them with a focus. -/
inductive InBrackets : Production Segment
  | mk {t selectors rest}
    (inside : InListed (Selector Nested) (InSelector Focus) t selectors (.char ']' :: rest))
    : InBrackets (.char '[' :: t) (.ofSelection selectors) rest

/-- A segment or a descent whose selectors have a focus, with the blanks in front of it. -/
inductive InGroup : Production (List Segment)
  | brackets {t first selector rest} (blanks : Blanks t first)
    (inside : InBrackets Nested Focus first selector rest)
    : InGroup t [selector] rest
  | descent {t first selector rest} (blanks : Blanks t (.char '.' :: .char '.' :: first))
    (inside : InBrackets Nested Focus first selector rest)
    : InGroup t [.descendants, selector] rest

/-- The segments after the identifier of a node, one of them with a focus. -/
inductive InSegments : Production JsonPath.Query
  | mk {t groups rest}
    (inside : InRepeated (SpacedGroup Nested) (InGroup Nested Focus) t groups rest)
    : InSegments t groups.flatten rest

/-- A query with a focus, or a call with a focus in an argument. -/
inductive InPrimary : Production Expression
  | current {t query rest} (inside : InSegments Nested Focus t query rest)
    : InPrimary (.char '@' :: t) (.current query) rest
  | root {t query rest} (inside : InSegments Nested Focus t query rest)
    : InPrimary (.char '$' :: t) (.root query) rest
  | call {name t arguments rest} (isName : IsFunctionName name)
    (inside : InListed Nested Focus t arguments (.char ')' :: rest))
    (fitCall : Expression.FitCall name arguments)
    : InPrimary (name ++ .char '(' :: t) (.call name arguments) rest

/-- An expression with a focus in parentheses. -/
inductive InParentheses : Production Expression
  | mk {t first e last rest} (before : Blanks t first) (inside : Focus first e last)
    (isTest : e.IsTest) (after : Blanks last (.char ')' :: rest))
    : InParentheses (.char '(' :: t) e rest

/-- What can stand on a side of `&&`, with a focus inside of it. -/
inductive InBasic : Production Expression
  | negatedParentheses {t first e rest} (blanks : Blanks t first)
    (inside : InParentheses Focus first e rest)
    : InBasic (.char '!' :: t) (.negation e) rest
  | negatedPrimary {t first e rest} (blanks : Blanks t first)
    (inside : InPrimary Nested Focus first e rest) (notLiteral : e.isPrimary)
    (isTest : e.IsTest)
    : InBasic (.char '!' :: t) (.negation e) rest
  | parentheses {t e rest} (inside : InParentheses Focus t e rest) : InBasic t e rest
  | primary {t e rest} (inside : InPrimary Nested Focus t e rest) : InBasic t e rest
  | left {t left afterLeft comparator afterComparator first right rest}
    (inside : InPrimary Nested Focus t left afterLeft)
    (before : Blanks afterLeft (comparator.text ++ afterComparator))
    (after : Blanks afterComparator first)
    (hasRight : Primary Literal Nested first right rest)
    (leftComparable : left.IsComparable) (rightComparable : right.IsComparable)
    : InBasic t (.comparison comparator left right) rest
  | right {t left afterLeft comparator afterComparator first right rest}
    (hasLeft : Primary Literal Nested t left afterLeft)
    (before : Blanks afterLeft (comparator.text ++ afterComparator))
    (after : Blanks afterComparator first)
    (inside : InPrimary Nested Focus first right rest)
    (leftComparable : left.IsComparable) (rightComparable : right.IsComparable)
    : InBasic t (.comparison comparator left right) rest

variable (start stop : Text)

/-- A conjunction with a focus inside of an operand or on some of its operands. -/
inductive InConjunction : Production Expression
  | inside {t operands rest}
    (inside : InJoined (Basic Literal Nested) (InBasic Literal Nested Focus)
      [.char '&', .char '&'] t operands rest)
    (areTests : operands.length ≠ 1 → ∀ e ∈ operands, e.IsTest)
    : InConjunction t (.conjoin operands) rest
  | run {t front run back rest}
    (spelling : Run (Basic Literal Nested) [.char '&', .char '&'] start stop t front run back
      rest)
    (several : 1 < (front ++ run ++ back).length)
    (areTests : ∀ e ∈ front ++ run ++ back, e.IsTest)
    : InConjunction t (.conjoin (front ++ run ++ back)) rest

/-- A disjunction with a focus inside of an operand or on some of its operands. -/
inductive InDisjunction : Production Expression
  | inside {t operands rest}
    (inside : InJoined (Conjunction Literal Nested) (InConjunction Literal Nested Focus start stop)
      [.char '|', .char '|'] t operands rest)
    (areTests : operands.length ≠ 1 → ∀ e ∈ operands, e.IsTest)
    : InDisjunction t (.disjoin operands) rest
  | run {t front run back rest}
    (spelling : Run (Conjunction Literal Nested) [.char '|', .char '|'] start stop t front run
      back rest)
    (several : 1 < (front ++ run ++ back).length)
    (areTests : ∀ e ∈ front ++ run ++ back, e.IsTest)
    : InDisjunction t (.disjoin (front ++ run ++ back)) rest

end Productions

/-- A logical expression with a focus at any of at most `depth` levels of nesting. -/
def InLogical (Literal : Production Value) (start stop : Text) : Nat → Production Expression
  | 0 => fun _ _ _ => False
  | depth + 1 =>
    InDisjunction Literal (Logical Literal depth) (InLogical Literal start stop depth) start stop

/-- The whole text is a logical expression that can have a truth value, with blanks on both
sides.
-/
inductive IsBody (Literal : Production Value) (depth : Nat) : Text → Expression → Prop
  | mk {t first e last} (before : Blanks t first) (spelling : Logical Literal depth first e last)
    (isTest : e.IsTest) (after : Blanks last [])
    : IsBody Literal depth t e

/-- The body of a filter is a filter without a question mark. -/
theorem IsBody.isFilter {Literal : Production Value} {depth : Nat} {t : Text} {e : Expression}
    (h : IsBody Literal depth t e)
    : IsFilter Literal depth t e := by
  obtain ⟨before, spelling, isTest, after⟩ := h
  exact .plain before spelling isTest after

/-- The body of a filter is a filter behind a question mark as well. -/
theorem IsBody.isFilter_marked {Literal : Production Value} {depth : Nat} {t mark : Text}
    {e : Expression} (h : IsBody Literal depth mark e) (before : Blanks t (.char '?' :: mark))
    : IsFilter Literal depth t e := by
  obtain ⟨between, spelling, isTest, after⟩ := h
  exact .marked before between spelling isTest after

/-- Such an expression with a focus, or one that takes up the text from `start` up to `stop`
as a whole, the blanks at its sides included or not.
-/
inductive InBody (Literal : Production Value) (start stop : Text) (depth : Nat)
    : Text → Expression → Prop
  | operands {t first e last} (before : Blanks t first)
    (inside : InLogical Literal start stop depth first e last) (isTest : e.IsTest)
    (after : Blanks last [])
    : InBody Literal start stop depth t e
  | whole {t first e last} (before : Blanks t start) (left : Blanks start first)
    (spelling : Logical Literal depth first e last) (isTest : e.IsTest)
    (right : Blanks last stop) (after : Blanks stop [])
    : InBody Literal start stop depth t e

/-- The whole text is a filter expression in which adjacent operands of one operator, or the
whole expression behind the question mark, take up the text from `start` up to `stop`.
-/
inductive InFilter (Literal : Production Value) (start stop : Text) (depth : Nat)
    : Text → Expression → Prop
  | plain {t e} (inside : InBody Literal start stop depth t e)
    : InFilter Literal start stop depth t e
  | marked {t mark e} (before : Blanks t (.char '?' :: mark))
    (inside : InBody Literal start stop depth mark e)
    : InFilter Literal start stop depth t e

/-- The second text is the first one, a filter, with parentheses around adjacent operands of
one operator or around all of it behind its question mark.
-/
inductive Parenthesized (depth : Nat) : Text → Text → Prop
  | mk {before word stop e}
    (focus : InFilter Literal (word ++ stop) stop depth (before ++ (word ++ stop)) e)
    : Parenthesized depth (before ++ (word ++ stop))
        (before ++ .char '(' :: (word ++ .char ')' :: stop))

end JsonPath.Grammar
