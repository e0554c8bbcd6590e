import JsonPath.Proofs.Grammar.Literals
import JsonPath.Proofs.Grammar.Query

/-! How queries and expressions are formed that come from a text or from a builder. `Nested`
are the expressions that can stand between delimiters, and `Formed` ties the knot by the
number of levels of nesting. Each rule keeps the conditions on the use of expressions, and
operands are flattened: none of a disjunction is a disjunction, none of a conjunction a
conjunction.
-/

namespace JsonPath.Formation

section Rules

variable (Nested : Expression → Prop)

/-- A selector that can stand in a union. -/
inductive Selector : Segment → Prop
  | key {name} : Selector (.key name)
  | index {position} (inRange : position.natAbs ≤ maxInteger) : Selector (.index position)
  | slice {start stop step} (startInRange : ∀ n ∈ start, Int.natAbs n ≤ maxInteger)
    (stopInRange : ∀ n ∈ stop, Int.natAbs n ≤ maxInteger)
    (stepInRange : step.natAbs ≤ maxInteger)
    : Selector (.slice start stop step)
  | wildcard : Selector .wildcard
  | filter {test} (formed : Nested test) (isTest : test.IsTest) : Selector (.filter test)

/-- A selector, or a union of two or more. -/
inductive Selection : Segment → Prop
  | selector {selector} (formed : Selector Nested selector) : Selection selector
  | union {first second others}
    (formed : ∀ selector ∈ first :: second :: others, Selector Nested selector)
    : Selection (.union (first :: second :: others))

/-- Segments in which a selection follows each descent. -/
inductive Segments : List Segment → Prop
  | nil : Segments []
  | child {selection segments} (first : Selection Nested selection)
    (others : Segments segments)
    : Segments (selection :: segments)
  | descent {selection segments} (first : Selection Nested selection)
    (others : Segments segments)
    : Segments (.descendants :: selection :: segments)

inductive Primary : Expression → Prop
  | literal {value} (isLiteral : value.IsLiteral) : Primary (.literal value)
  | current {segments} (formed : Segments Nested segments) : Primary (.current segments)
  | root {segments} (formed : Segments Nested segments) : Primary (.root segments)
  | call {name arguments} (isName : Grammar.IsFunctionName name)
    (formed : ∀ e ∈ arguments, Nested e) (fitCall : Expression.FitCall name arguments)
    : Primary (.call name arguments)

/-- An expression without conjunctions and disjunctions outside of delimiters. -/
inductive Basic : Expression → Prop
  | primary {e} (formed : Primary Nested e) : Basic e
  | comparison {comparator left right} (formedLeft : Primary Nested left)
    (formedRight : Primary Nested right) (leftComparable : left.IsComparable)
    (rightComparable : right.IsComparable)
    : Basic (.comparison comparator left right)
  | negatedPrimary {e} (formed : Primary Nested e) (isPrimary : e.isPrimary) (isTest : e.IsTest)
    : Basic (.negation e)
  | negated {e} (formed : Nested e) (notPrimary : e.isPrimary = false) (isTest : e.IsTest)
    : Basic (.negation e)

/-- An operand of a conjunction. Disjunctions stand between parentheses there. -/
inductive Operand : Expression → Prop
  | basic {e} (formed : Basic Nested e) : Operand e
  | disjunction {operands} (formed : Nested (.disjunction operands))
    : Operand (.disjunction operands)

/-- An operand of a disjunction. -/
inductive Alternative : Expression → Prop
  | basic {e} (formed : Basic Nested e) : Alternative e
  | conjunction {first second others}
    (formed : ∀ e ∈ first :: second :: others, Operand Nested e ∧ e.IsTest)
    : Alternative (.conjunction (first :: second :: others))

inductive Disjunction : Expression → Prop
  | alternative {e} (formed : Alternative Nested e) : Disjunction e
  | disjunction {first second others}
    (formed : ∀ e ∈ first :: second :: others, Alternative Nested e ∧ e.IsTest)
    : Disjunction (.disjunction (first :: second :: others))

end Rules

/-- An expression that is formed with at most `depth` levels of nesting. -/
def Formed : Nat → Expression → Prop
  | 0 => fun _ => False
  | depth + 1 => Disjunction (Formed depth)

-----------------------------------------------------------------------------------------
-- More nested expressions
-----------------------------------------------------------------------------------------

section Growth

variable {Nested More : Expression → Prop} (more : ∀ e, Nested e → More e)

include more

/-- Well-formed selectors stay so when more expressions can be nested in them. -/
theorem Selector.mono {s : Segment} (h : Selector Nested s) : Selector More s := by
  cases h with
  | key => exact .key
  | index inRange => exact .index inRange
  | slice startInRange stopInRange stepInRange =>
      exact .slice startInRange stopInRange stepInRange
  | wildcard => exact .wildcard
  | filter formed isTest => exact .filter (more _ formed) isTest

theorem Selection.mono {s : Segment} (h : Selection Nested s) : Selection More s := by
  cases h with
  | selector formed => exact .selector (formed.mono more)
  | union formed => exact .union fun s member => (formed s member).mono more

theorem Segments.mono {segments : List Segment} (h : Segments Nested segments)
    : Segments More segments := by
  induction h with
  | nil => exact .nil
  | child first _ ih => exact .child (first.mono more) ih
  | descent first _ ih => exact .descent (first.mono more) ih

theorem Primary.mono {e : Expression} (h : Primary Nested e) : Primary More e := by
  cases h with
  | literal isLiteral => exact .literal isLiteral
  | current formed => exact .current (formed.mono more)
  | root formed => exact .root (formed.mono more)
  | call isName formed fitCall =>
      exact .call isName (fun e member => more e (formed e member)) fitCall

theorem Basic.mono {e : Expression} (h : Basic Nested e) : Basic More e := by
  cases h with
  | primary formed => exact .primary (formed.mono more)
  | comparison formedLeft formedRight leftComparable rightComparable =>
      exact .comparison (formedLeft.mono more) (formedRight.mono more) leftComparable
        rightComparable
  | negatedPrimary formed isPrimary isTest =>
      exact .negatedPrimary (formed.mono more) isPrimary isTest
  | negated formed notPrimary isTest => exact .negated (more _ formed) notPrimary isTest

theorem Operand.mono {e : Expression} (h : Operand Nested e) : Operand More e := by
  cases h with
  | basic formed => exact .basic (formed.mono more)
  | disjunction formed => exact .disjunction (more _ formed)

theorem Alternative.mono {e : Expression} (h : Alternative Nested e) : Alternative More e := by
  cases h with
  | basic formed => exact .basic (formed.mono more)
  | conjunction formed =>
      exact .conjunction fun e member => (formed e member).imp_left (·.mono more)

/-- Well-formed disjunctions stay so when more expressions can be nested in them. -/
theorem Disjunction.mono {e : Expression} (h : Disjunction Nested e) : Disjunction More e := by
  cases h with
  | alternative formed => exact .alternative (formed.mono more)
  | disjunction formed =>
      exact .disjunction fun e member => (formed e member).imp_left (·.mono more)

end Growth

/-- What is formed at one level of nesting is formed at the next, by induction on it. -/
theorem Formed.succ {depth : Nat} {e : Expression} (h : Formed depth e)
    : Formed (depth + 1) e := by
  induction depth generalizing e with
  | zero => cases h
  | succ depth ih => exact Disjunction.mono (fun _ => ih) h

-----------------------------------------------------------------------------------------
-- Shapes
-----------------------------------------------------------------------------------------

section Shapes

variable {Nested : Expression → Prop} {e : Expression}

/-- A basic expression that is primary is a well-formed operand. -/
theorem Primary.of_basic (h : Basic Nested e) (isPrimary : e.isPrimary) : Primary Nested e := by
  cases h with
  | primary formed => exact formed
  | comparison _ _ _ _ => cases isPrimary
  | negatedPrimary _ _ _ => cases isPrimary
  | negated _ _ _ => cases isPrimary

/-- An expression that is primary is a well-formed operand. -/
theorem Primary.of_disjunction (h : Disjunction Nested e) (isPrimary : e.isPrimary)
    : Primary Nested e := by
  cases h with
  | alternative formed =>
      cases formed with
      | basic formed => exact .of_basic formed isPrimary
      | conjunction _ => cases isPrimary
  | disjunction _ => cases isPrimary

end Shapes

end JsonPath.Formation
