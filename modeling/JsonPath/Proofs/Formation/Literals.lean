import JsonPath.Proofs.Formation.Derivation
import JsonPath.Proofs.Parsing

/-! The literals of formed queries and expressions, at any depth, are those that a text can
spell. What holds of all of these holds of all literals of a parsed query.
-/

namespace JsonPath.Formation

variable {good : Value → Bool}

section Rules

variable {Nested : Expression → Prop} (literals : ∀ value : Value, value.IsLiteral → good value)
  (nested : ∀ e, Nested e → e.allLiterals good)

include nested

/-- The literals of a selector are good when those of nested expressions are. -/
theorem allLiterals_of_selector {selector : Segment} (h : Selector Nested selector)
    : selector.allLiterals good := by
  cases h with
  | filter formed _ => exact nested _ formed
  | _ => rfl

theorem allLiterals_of_selection {selection : Segment} (h : Selection Nested selection)
    : selection.allLiterals good := by
  cases h with
  | selector formed => exact allLiterals_of_selector nested formed
  | union formed =>
      rw [Segment.allLiterals, segmentsAllLiterals_eq, List.all_eq_true]
      exact fun selector member => allLiterals_of_selector nested (formed selector member)

/-- The same of segments, one by one. -/
theorem allLiterals_of_segments {segments : List Segment} (h : Segments Nested segments)
    : Query.allLiterals good segments := by
  rw [Query.allLiterals]
  induction h with
  | nil => rfl
  | child first _ ih =>
      rw [List.all_cons, allLiterals_of_selection nested first, ih]
      rfl
  | descent first _ ih =>
      rw [List.all_cons, List.all_cons, allLiterals_of_selection nested first, ih]
      rfl

include literals

/-- The same of an operand, which may be a literal. -/
theorem allLiterals_of_primary {e : Expression} (h : Primary Nested e) : e.allLiterals good := by
  cases h with
  | literal isLiteral => exact literals _ isLiteral
  | current formed =>
      rw [Expression.allLiterals, segmentsAllLiterals_eq]
      exact allLiterals_of_segments nested formed
  | root formed =>
      rw [Expression.allLiterals, segmentsAllLiterals_eq]
      exact allLiterals_of_segments nested formed
  | call _ formed _ =>
      rw [Expression.allLiterals, expressionsAllLiterals_eq, List.all_eq_true]
      exact fun e member => nested e (formed e member)

theorem allLiterals_of_basic {e : Expression} (h : Basic Nested e) : e.allLiterals good := by
  cases h with
  | primary formed => exact allLiterals_of_primary literals nested formed
  | comparison formedLeft formedRight _ _ =>
      rw [Expression.allLiterals, allLiterals_of_primary literals nested formedLeft,
        allLiterals_of_primary literals nested formedRight]
      rfl
  | negatedPrimary formed _ _ =>
      rw [Expression.allLiterals]
      exact allLiterals_of_primary literals nested formed
  | negated formed _ _ =>
      rw [Expression.allLiterals]
      exact nested _ formed

theorem allLiterals_of_operand {e : Expression} (h : Operand Nested e) : e.allLiterals good := by
  cases h with
  | basic formed => exact allLiterals_of_basic literals nested formed
  | disjunction formed => exact nested _ formed

theorem allLiterals_of_alternative {e : Expression} (h : Alternative Nested e)
    : e.allLiterals good := by
  cases h with
  | basic formed => exact allLiterals_of_basic literals nested formed
  | conjunction formed =>
      rw [Expression.allLiterals, expressionsAllLiterals_eq, List.all_eq_true]
      exact fun e member => allLiterals_of_operand literals nested (formed e member).1

/-- The same of a disjunction, from its operands upwards. -/
theorem allLiterals_of_disjunction {e : Expression} (h : Disjunction Nested e)
    : e.allLiterals good := by
  cases h with
  | alternative formed => exact allLiterals_of_alternative literals nested formed
  | disjunction formed =>
      rw [Expression.allLiterals, expressionsAllLiterals_eq, List.all_eq_true]
      exact fun e member => allLiterals_of_alternative literals nested (formed e member).1

end Rules

/-- All literals of a formed expression are good when all that can be spelled are, by
induction on the levels of nesting.
-/
theorem allLiterals_of_formed (literals : ∀ value : Value, value.IsLiteral → good value)
    {depth : Nat} {e : Expression} (h : Formed depth e)
    : e.allLiterals good := by
  induction depth generalizing e with
  | zero => cases h
  | succ depth ih => exact allLiterals_of_disjunction literals (fun _ => ih) h

end JsonPath.Formation

namespace JsonPath

/-- All literals of a parsed query are good when all that can be spelled are. -/
theorem Query.allLiterals_of_parseWithin {good : Value → Bool}
    (literals : ∀ value : Value, value.IsLiteral → good value) {depth : Nat} {t : Text}
    {query : Query} (parsed : parseWithin depth t = .ok query)
    : query.allLiterals good := by
  have formed := Formation.segments_of_isQuery (isQuery_of_parseWithin parsed)
  exact Formation.allLiterals_of_segments (fun _ => Formation.allLiterals_of_formed literals)
    formed

end JsonPath
