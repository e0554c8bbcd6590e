import JsonPath.Proofs.Formation.Derivation
import JsonPath.Proofs.Parsing

/-! The expressions of a query, at any depth: in filters, in unions, as operands and as
arguments of calls. Every expression inside a formed one is formed itself, so that the rules
of formation can be read off wherever an expression stands.
-/

namespace JsonPath

mutual

/-- The expressions in a segment, at any depth. -/
def Segment.expressions : Segment → List Expression
  | .filter test => test.expressions
  | .union selectors => segmentsExpressions selectors
  | _ => []

def segmentsExpressions : List Segment → List Expression
  | [] => []
  | segment :: segments => segment.expressions ++ segmentsExpressions segments

/-- An expression and those inside it, at any depth. -/
def Expression.expressions : Expression → List Expression
  | .literal value => [.literal value]
  | .current segments => .current segments :: segmentsExpressions segments
  | .root segments => .root segments :: segmentsExpressions segments
  | .comparison comparator left right =>
    .comparison comparator left right :: (left.expressions ++ right.expressions)
  | .conjunction operands => .conjunction operands :: expressionsExpressions operands
  | .disjunction operands => .disjunction operands :: expressionsExpressions operands
  | .negation operand => .negation operand :: operand.expressions
  | .call name arguments => .call name arguments :: expressionsExpressions arguments

def expressionsExpressions : List Expression → List Expression
  | [] => []
  | e :: es => e.expressions ++ expressionsExpressions es

end

/-- The expressions in a query, at any depth. -/
def Query.expressions (query : Query) : List Expression :=
  query.flatMap Segment.expressions

/-- The expressions in segments are those in each one, by induction on the segments. -/
@[simp] theorem segmentsExpressions_eq (segments : List Segment)
    : segmentsExpressions segments = segments.flatMap Segment.expressions := by
  induction segments with
  | nil => simp [segmentsExpressions]
  | cons segment segments ih => simp [segmentsExpressions, ih]

@[simp] theorem expressionsExpressions_eq (es : List Expression)
    : expressionsExpressions es = es.flatMap Expression.expressions := by
  induction es with
  | nil => simp [expressionsExpressions]
  | cons e es ih => simp [expressionsExpressions, ih]

namespace Formation

section Rules

variable {Nested Good : Expression → Prop} (formed : ∀ e, Disjunction Nested e → Good e)
  (nested : ∀ e, Nested e → ∀ inner ∈ e.expressions, Good inner)

include nested

/-- What holds of nested expressions holds of all expressions in a selector. -/
theorem forall_of_selector {selector : Segment} (h : Selector Nested selector)
    : ∀ inner ∈ selector.expressions, Good inner := by
  cases h with
  | filter formed _ => exact nested _ formed
  | _ => exact fun _ member => absurd member List.not_mem_nil

theorem forall_of_selection {selection : Segment} (h : Selection Nested selection)
    : ∀ inner ∈ selection.expressions, Good inner := by
  cases h with
  | selector formed => exact forall_of_selector nested formed
  | union formed =>
      rw [Segment.expressions, segmentsExpressions_eq]
      intro inner member
      obtain ⟨selector, isSelector, inside⟩ := List.mem_flatMap.mp member
      exact forall_of_selector nested (formed selector isSelector) inner inside

/-- The same of the expressions in segments, one by one. -/
theorem forall_of_segments {segments : List Segment} (h : Segments Nested segments)
    : ∀ inner ∈ Query.expressions segments, Good inner := by
  rw [Query.expressions]
  induction h with
  | nil => exact fun _ member => absurd member List.not_mem_nil
  | child first _ ih =>
      rw [List.flatMap_cons, List.forall_mem_append]
      exact ⟨forall_of_selection nested first, ih⟩
  | descent first _ ih =>
      rw [List.flatMap_cons, List.flatMap_cons]
      simp only [Segment.expressions, List.nil_append, List.forall_mem_append]
      exact ⟨forall_of_selection nested first, ih⟩

omit nested in
/-- What is said of an operator is said of the whole expression, and of the expressions in
its operands.
-/
theorem forall_of_operands {e : Expression} {operands : List Expression} (good : Good e)
    (inside : ∀ operand ∈ operands, ∀ inner ∈ operand.expressions, Good inner)
    : ∀ inner ∈ e :: expressionsExpressions operands, Good inner := by
  rw [List.forall_mem_cons, expressionsExpressions_eq]
  refine ⟨good, fun inner member => ?_⟩
  obtain ⟨operand, isOperand, member⟩ := List.mem_flatMap.mp member
  exact inside operand isOperand inner member

include formed

/-- The same of the expressions in an operand, with the operand itself. -/
theorem forall_of_primary {e : Expression} (h : Primary Nested e)
    : ∀ inner ∈ e.expressions, Good inner := by
  have good := formed e (.alternative (.basic (.primary h)))
  cases h with
  | literal _ => exact List.forall_mem_singleton.mpr good
  | current isFormed =>
      rw [Expression.expressions, List.forall_mem_cons, segmentsExpressions_eq]
      exact ⟨good, forall_of_segments nested isFormed⟩
  | root isFormed =>
      rw [Expression.expressions, List.forall_mem_cons, segmentsExpressions_eq]
      exact ⟨good, forall_of_segments nested isFormed⟩
  | call _ isFormed _ =>
      exact forall_of_operands good fun e member => nested e (isFormed e member)

theorem forall_of_basic {e : Expression} (h : Basic Nested e)
    : ∀ inner ∈ e.expressions, Good inner := by
  have good := formed e (.alternative (.basic h))
  cases h with
  | primary isFormed => exact forall_of_primary formed nested isFormed
  | comparison formedLeft formedRight _ _ =>
      rw [Expression.expressions, List.forall_mem_cons, List.forall_mem_append]
      exact ⟨good, forall_of_primary formed nested formedLeft,
        forall_of_primary formed nested formedRight⟩
  | negatedPrimary isFormed _ _ =>
      rw [Expression.expressions, List.forall_mem_cons]
      exact ⟨good, forall_of_primary formed nested isFormed⟩
  | negated isFormed _ _ =>
      rw [Expression.expressions, List.forall_mem_cons]
      exact ⟨good, nested _ isFormed⟩

theorem forall_of_operand {e : Expression} (h : Operand Nested e)
    : ∀ inner ∈ e.expressions, Good inner := by
  cases h with
  | basic isFormed => exact forall_of_basic formed nested isFormed
  | disjunction isFormed => exact nested _ isFormed

theorem forall_of_alternative {e : Expression} (h : Alternative Nested e)
    : ∀ inner ∈ e.expressions, Good inner := by
  have good := formed e (.alternative h)
  cases h with
  | basic isFormed => exact forall_of_basic formed nested isFormed
  | conjunction isFormed =>
      exact forall_of_operands good fun e member =>
        forall_of_operand formed nested (isFormed e member).1

/-- The same of the expressions in a disjunction, from its operands upwards. -/
theorem forall_of_disjunction {e : Expression} (h : Disjunction Nested e)
    : ∀ inner ∈ e.expressions, Good inner := by
  have good := formed e h
  cases h with
  | alternative isFormed => exact forall_of_alternative formed nested isFormed
  | disjunction isFormed =>
      exact forall_of_operands good fun e member =>
        forall_of_alternative formed nested (isFormed e member).1

end Rules

/-- Every expression inside a formed one is formed, by induction on the levels of nesting. -/
theorem formed_of_mem {depth : Nat} {e inner : Expression} (h : Formed depth e)
    (inside : inner ∈ e.expressions)
    : ∃ depth, Formed depth inner := by
  induction depth generalizing e inner with
  | zero => cases h
  | succ depth ih =>
      have outer (e : Expression) (formed : Disjunction (Formed depth) e)
          : ∃ depth, Formed depth e :=
        ⟨depth + 1, formed⟩
      exact forall_of_disjunction outer (fun _ formed _ => ih formed) h inner inside

end Formation

/-- Every expression in a parsed query is formed. -/
theorem Query.formed_of_parseWithin {depth : Nat} {t : Text} {query : Query}
    {inner : Expression} (parsed : parseWithin depth t = .ok query)
    (inside : inner ∈ query.expressions)
    : ∃ depth, Formation.Formed depth inner := by
  have formed := Formation.segments_of_isQuery (isQuery_of_parseWithin parsed)
  exact Formation.forall_of_segments (fun _ isFormed _ => Formation.formed_of_mem isFormed)
    formed inner inside

/-- Every expression in a parsed filter expression is formed. -/
theorem Expression.formed_of_parseWithin {depth : Nat} {t : Text} {e inner : Expression}
    (parsed : parseWithin depth t = .ok e) (inside : inner ∈ e.expressions)
    : ∃ depth, Formation.Formed depth inner := by
  have formed := (Formation.formed_of_isFilter (isFilter_of_parseWithin parsed)).1
  exact Formation.formed_of_mem formed inside

end JsonPath
