import JsonPath.Proofs.Grammar.Token
import Mathlib.Data.List.Forall2
import JsonPath.Query.Reader

/-! The grammar of queries and filter expressions, one production for each of its rules.
Productions in which a logical expression stands between delimiters take the production
`Nested` of those, and `Logical` ties the knot by the number of levels of nesting. Literals
are spelled by a production of their own, `Literal` of the tokens for the grammar itself.
-/

namespace JsonPath

namespace Expression

/-- The expression can have a truth value. -/
def IsTest (e : Expression) : Prop :=
  Syntax.isLiteral e = false ∧ Syntax.resultKind? e ≠ some .value

/-- The expression can have a single value: queries have to be singular, and the functions
that are known to return values.
-/
def IsComparable (e : Expression) : Prop :=
  (∀ query, Syntax.segments? e = some query → query.isSingular)
  ∧ ∀ kind, Syntax.resultKind? e = some kind → kind = .value

/-- The arguments are as many as the function takes and of the kinds that it takes, when the
function is known.
-/
def FitCall (name : Text) (arguments : List Expression) : Prop :=
  ∀ builtin,
    Builtin.ofName? name = some builtin
    → List.Forall₂ (fun e kind => Syntax.isArgument e kind) arguments
        builtin.signature.parameters

end Expression

namespace Grammar

/-- A bound of a slice, with the blanks after it. -/
inductive Bound : Production (Option Int)
  | absent {t} : Bound t none t
  | integer {t n mid rest} (spelling : Integer t n mid) (blanks : Blanks mid rest)
    : Bound t (some n) rest

/-- The step of a slice, which is one when it is left out. -/
inductive SliceStep : Production Int
  | absent {t} : SliceStep t 1 t
  | colon {t rest} (blanks : Blanks t rest) : SliceStep (.char ':' :: t) 1 rest
  | integer {t start n rest} (blanks : Blanks t start) (spelling : Integer start n rest)
    : SliceStep (.char ':' :: t) n rest

/-- The name or the wildcard after the dots of a segment. -/
inductive Dotted : Production Segment
  | wildcard {rest} : Dotted (.char '*' :: rest) .wildcard rest
  | name {t name rest} (spelling : MemberName t name rest) : Dotted t (.key name) rest

/-- The expressions with those that the operator has made replaced by the operands in them,
and all others as they are.
-/
inductive Spliced (operator : List Expression → Expression)
    : List Expression → List Expression → Prop
  | nil : Spliced operator [] []
  | inner {parts es operands} (others : Spliced operator es operands)
    : Spliced operator (operator parts :: es) (parts ++ operands)
  | single {e es operands} (different : ∀ parts, e ≠ operator parts)
    (others : Spliced operator es operands)
    : Spliced operator (e :: es) (e :: operands)

section Productions

variable (Literal : Production Value) (Nested : Production Expression)

/-- A selector between brackets. -/
inductive Selector : Production Segment
  | name {t name rest} (spelling : QuotedString t name rest) : Selector t (.key name) rest
  | wildcard {rest} : Selector (.char '*' :: rest) .wildcard rest
  | index {t n rest} (spelling : Integer t n rest) : Selector t (.index n) rest
  | slice {t start afterColon beforeStop stop afterStop step rest}
    (hasStart : Bound t start (.char ':' :: afterColon))
    (blanks : Blanks afterColon beforeStop) (hasStop : Bound beforeStop stop afterStop)
    (hasStep : SliceStep afterStop step rest)
    : Selector t (.slice start stop step) rest
  | filter {t start test rest} (blanks : Blanks t start) (spelling : Nested start test rest)
    (isTest : test.IsTest)
    : Selector (.char '?' :: t) (.filter test) rest

/-- One selector between brackets, or the union of several. -/
inductive Brackets : Production Segment
  | one {t selector rest}
    (spelling : Listed (Selector Nested) t [selector] (.char ']' :: rest))
    : Brackets (.char '[' :: t) selector rest
  | several {t first second others rest}
    (spelling : Listed (Selector Nested) t (first :: second :: others) (.char ']' :: rest))
    : Brackets (.char '[' :: t) (.union (first :: second :: others)) rest

/-- A segment, or the two segments of a descent and its selector. -/
inductive SegmentGroup : Production (List Segment)
  | dotted {t selector rest} (spelling : Dotted t selector rest)
    : SegmentGroup (.char '.' :: t) [selector] rest
  | brackets {t selector rest} (spelling : Brackets Nested t selector rest)
    : SegmentGroup t [selector] rest
  | dottedDescent {t selector rest} (spelling : Dotted t selector rest)
    : SegmentGroup (.char '.' :: .char '.' :: t) [.descendants, selector] rest
  | bracketsDescent {t selector rest} (spelling : Brackets Nested t selector rest)
    : SegmentGroup (.char '.' :: .char '.' :: t) [.descendants, selector] rest

/-- A segment with the blanks in front of it. -/
inductive SpacedGroup : Production (List Segment)
  | mk {t start group rest} (blanks : Blanks t start)
    (spelling : SegmentGroup Nested start group rest)
    : SpacedGroup t group rest

/-- The segments after the identifier of a node. -/
inductive Segments : Production JsonPath.Query
  | mk {t groups rest} (spelling : Repeated (SpacedGroup Nested) t groups rest)
    : Segments t groups.flatten rest

/-- The arguments of a call and the closing parenthesis. -/
inductive Arguments : Production (List Expression)
  | none {t rest} (blanks : Blanks t (.char ')' :: rest)) : Arguments t [] rest
  | some {t arguments rest} (spelling : Listed Nested t arguments (.char ')' :: rest))
    : Arguments t arguments rest

/-- A literal, a query or a call. -/
inductive Primary : Production Expression
  | literal {t value rest} (spelling : Literal t value rest) : Primary t (.literal value) rest
  | current {t query rest} (spelling : Segments Nested t query rest)
    : Primary (.char '@' :: t) (.current query) rest
  | root {t query rest} (spelling : Segments Nested t query rest)
    : Primary (.char '$' :: t) (.root query) rest
  | call {name t arguments rest} (isName : IsFunctionName name)
    (spelling : Arguments Nested t arguments rest)
    (fitCall : Expression.FitCall name arguments)
    : Primary (name ++ .char '(' :: t) (.call name arguments) rest

/-- An expression that can have a truth value, in parentheses. -/
inductive Parentheses : Production Expression
  | mk {t start e stop rest} (before : Blanks t start) (spelling : Nested start e stop)
    (isTest : e.IsTest) (after : Blanks stop (.char ')' :: rest))
    : Parentheses (.char '(' :: t) e rest

/-- What can stand on a side of `&&`. -/
inductive Basic : Production Expression
  | negatedParentheses {t start e rest} (blanks : Blanks t start)
    (spelling : Parentheses Nested start e rest)
    : Basic (.char '!' :: t) (.negation e) rest
  | negatedPrimary {t start e rest} (blanks : Blanks t start)
    (spelling : Primary Literal Nested start e rest) (notLiteral : e.isPrimary)
    (isTest : e.IsTest)
    : Basic (.char '!' :: t) (.negation e) rest
  | parentheses {t e rest} (spelling : Parentheses Nested t e rest) : Basic t e rest
  | primary {t e rest} (spelling : Primary Literal Nested t e rest) : Basic t e rest
  | comparison {t left afterLeft comparator afterComparator start right rest}
    (hasLeft : Primary Literal Nested t left afterLeft)
    (before : Blanks afterLeft (comparator.text ++ afterComparator))
    (after : Blanks afterComparator start)
    (hasRight : Primary Literal Nested start right rest)
    (leftComparable : left.IsComparable) (rightComparable : right.IsComparable)
    : Basic t (.comparison comparator left right) rest

/-- One operand, which stands for itself, or several that are joined by `&&` and all have
truth values. Operands that are conjunctions themselves, in parentheses, are spliced.
-/
inductive Conjunction : Production Expression
  | one {t e rest} (spelling : Basic Literal Nested t e rest) : Conjunction t e rest
  | several {t first second others operands rest}
    (spelling : Joined [.char '&', .char '&'] (Basic Literal Nested) t
      (first :: second :: others) rest)
    (areTests : ∀ e ∈ first :: second :: others, e.IsTest)
    (spliced : Spliced .conjunction (first :: second :: others) operands)
    : Conjunction t (.conjunction operands) rest

/-- One operand, which stands for itself, or several that are joined by `||` and all have
truth values. Operands that are disjunctions themselves, in parentheses, are spliced.
-/
inductive Disjunction : Production Expression
  | one {t e rest} (spelling : Conjunction Literal Nested t e rest) : Disjunction t e rest
  | several {t first second others operands rest}
    (spelling : Joined [.char '|', .char '|'] (Conjunction Literal Nested) t
      (first :: second :: others) rest)
    (areTests : ∀ e ∈ first :: second :: others, e.IsTest)
    (spliced : Spliced .disjunction (first :: second :: others) operands)
    : Disjunction t (.disjunction operands) rest

end Productions

/-- A logical expression with at most `depth` levels of nesting. -/
def Logical (Literal : Production Value) : Nat → Production Expression
  | 0 => fun _ _ _ => False
  | depth + 1 => Disjunction Literal (Logical Literal depth)

/-- The whole text is a query whose expressions are nested at most `depth` deep. -/
inductive IsQuery (Literal : Production Value) (depth : Nat) : Text → JsonPath.Query → Prop
  | mk {t query} (spelling : Segments (Logical Literal depth) t query [])
    : IsQuery Literal depth (.char '$' :: t) query

/-- The whole text is a filter expression nested at most `depth` deep, with or without a
question mark in front of it.
-/
inductive IsFilter (Literal : Production Value) (depth : Nat) : Text → Expression → Prop
  | plain {t start e stop} (before : Blanks t start)
    (spelling : Logical Literal depth start e stop) (isTest : e.IsTest)
    (after : Blanks stop [])
    : IsFilter Literal depth t e
  | marked {t mark start e stop} (before : Blanks t (.char '?' :: mark))
    (between : Blanks mark start) (spelling : Logical Literal depth start e stop)
    (isTest : e.IsTest) (after : Blanks stop [])
    : IsFilter Literal depth t e

-----------------------------------------------------------------------------------------
-- Selections and operands as the reader puts them together
-----------------------------------------------------------------------------------------

section Joining

variable {Literal : Production Value} {Nested : Production Expression} {t rest : Text}

/-- A list spells at least one item. -/
theorem ne_nil_of_listed {α : Type} {Item : Production α} {items : List α}
    (h : Listed Item t items rest)
    : items ≠ [] := by
  cases h <;> simp

/-- Joined items are at least one. -/
theorem ne_nil_of_joined {α : Type} {operator : Text} {Item : Production α} {items : List α}
    (h : Joined operator Item t items rest)
    : items ≠ [] := by
  cases h <;> simp

/-- Where a single item is joined, the text spells this item alone. -/
theorem joined_singleton {α : Type} {operator : Text} {Item : Production α} {item : α}
    (h : Joined operator Item t [item] rest)
    : Item t item rest := by
  cases h with
  | one spelling => exact spelling
  | more _ _ _ others => cases others

/-- Brackets hold the selectors of a selection. -/
theorem brackets_iff {selection : Segment}
    : Brackets Nested t selection rest
      ↔ ∃ inside selectors,
        t = .char '[' :: inside
        ∧ Listed (Selector Nested) inside selectors (.char ']' :: rest)
        ∧ selection = .ofSelection selectors := by
  constructor
  · intro h
    cases h with
    | one spelling => exact ⟨_, _, rfl, spelling, rfl⟩
    | several spelling => exact ⟨_, _, rfl, spelling, rfl⟩
  · rintro ⟨_, selectors, rfl, spelling, rfl⟩
    match selectors, ne_nil_of_listed spelling with
    | [_], _ => exact .one spelling
    | _ :: _ :: _, _ => exact .several spelling

/-- Splicing gives the operands that the expressions contribute, by induction on them. -/
theorem spliced_iff {operator : List Expression → Expression}
    {parts : Expression → List Expression} (inner : ∀ es, parts (operator es) = es)
    (single : ∀ e, (∀ es, e ≠ operator es) → parts e = [e]) {es operands : List Expression}
    : Spliced operator es operands ↔ operands = es.flatMap parts := by
  constructor
  · intro h
    induction h with
    | nil => rfl
    | inner _ ih => rw [List.flatMap_cons, inner, ih]
    | single different _ ih =>
        rw [List.flatMap_cons, single _ different, ih]
        rfl
  · rintro rfl
    induction es with
    | nil => exact .nil
    | cons e es ih =>
        rw [List.flatMap_cons]
        by_cases made : ∃ parts, e = operator parts
        · obtain ⟨_, rfl⟩ := made
          rw [inner]
          exact .inner ih
        · have different := not_exists.mp made
          rw [single e different]
          exact .single different ih

/-- The conjuncts of all operands, in order, are what a conjunction of them is made of. -/
theorem spliced_conjunction_iff {es operands : List Expression}
    : Spliced .conjunction es operands ↔ operands = es.flatMap Expression.conjuncts := by
  refine spliced_iff (fun _ => rfl) fun e different => ?_
  cases e with
  | conjunction es => exact absurd rfl (different es)
  | _ => rfl

/-- The disjuncts of all operands, in order, are what a disjunction of them is made of. -/
theorem spliced_disjunction_iff {es operands : List Expression}
    : Spliced .disjunction es operands ↔ operands = es.flatMap Expression.disjuncts := by
  refine spliced_iff (fun _ => rfl) fun e different => ?_
  cases e with
  | disjunction es => exact absurd rfl (different es)
  | _ => rfl

/-- A conjunction is what its operands make when they are conjoined. -/
theorem conjunction_iff {e : Expression}
    : Conjunction Literal Nested t e rest
      ↔ ∃ operands,
        Joined [.char '&', .char '&'] (Basic Literal Nested) t operands rest
        ∧ (operands.length ≠ 1 → ∀ e ∈ operands, e.IsTest)
        ∧ e = .conjoin operands := by
  constructor
  · intro h
    cases h with
    | one spelling => exact ⟨[e], .one spelling, by simp, rfl⟩
    | several spelling areTests spliced =>
        refine ⟨_, spelling, fun _ => areTests, ?_⟩
        rw [spliced_conjunction_iff.mp spliced]
        rfl
  · rintro ⟨operands, spelling, areTests, rfl⟩
    match operands, ne_nil_of_joined spelling with
    | [_], _ => exact .one (joined_singleton spelling)
    | _ :: _ :: _, _ =>
        exact .several spelling (areTests (by simp)) (spliced_conjunction_iff.mpr rfl)

/-- A disjunction is what its operands make when they are disjoined. -/
theorem disjunction_iff {e : Expression}
    : Disjunction Literal Nested t e rest
      ↔ ∃ operands,
        Joined [.char '|', .char '|'] (Conjunction Literal Nested) t operands rest
        ∧ (operands.length ≠ 1 → ∀ e ∈ operands, e.IsTest)
        ∧ e = .disjoin operands := by
  constructor
  · intro h
    cases h with
    | one spelling => exact ⟨[e], .one spelling, by simp, rfl⟩
    | several spelling areTests spliced =>
        refine ⟨_, spelling, fun _ => areTests, ?_⟩
        rw [spliced_disjunction_iff.mp spliced]
        rfl
  · rintro ⟨operands, spelling, areTests, rfl⟩
    match operands, ne_nil_of_joined spelling with
    | [_], _ => exact .one (joined_singleton spelling)
    | _ :: _ :: _, _ =>
        exact .several spelling (areTests (by simp)) (spliced_disjunction_iff.mpr rfl)

end Joining

end Grammar

end JsonPath
