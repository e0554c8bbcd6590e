import JsonPath.Proofs.Formation.Derivation
import JsonPath.Proofs.Rendering.Literals

/-! The text of a formed query or expression is derived from the grammar and spells it, with
literals spelled by their texts. Nested expressions are spelled by assumption until
`logical_of_formed` discharges it by induction on the levels of nesting.
-/

namespace JsonPath.Formation

open Grammar (Production Listed Joined Repeated RenderedLiteral)

section Nesting

variable {Nested : Production Expression} {Formed : Expression → Prop}
  (spelled : ∀ e rest, Formed e → Nested (e.text ++ rest) e rest)

-----------------------------------------------------------------------------------------
-- Selectors
-----------------------------------------------------------------------------------------

/-- A bound in range is written as the grammar spells it, or left out. -/
theorem bound_boundText {bound : Option Int} (inRange : ∀ n ∈ bound, n.natAbs ≤ maxInteger)
    (rest : Text)
    : Grammar.Bound (boundText bound ++ rest) bound rest := by
  cases bound with
  | none => exact .absent
  | some n => exact .integer (Grammar.integer_ofInt (inRange n rfl) rest) .none

include spelled

/-- A well-formed selector is written as the grammar spells it, by cases on its formation. -/
theorem selector_selectorText {s : Segment} (h : Selector Formed s) (rest : Text)
    : Grammar.Selector Nested (s.selectorText ++ rest) s rest := by
  cases h with
  | @key name => exact .name (Grammar.quotedString_quoteName name rest)
  | index inRange => exact .index (Grammar.integer_ofInt inRange rest)
  | @slice start stop step startInRange stopInRange stepInRange =>
      rw [Segment.selectorText, List.append_assoc, List.append_assoc, List.cons_append]
      refine .slice (bound_boundText startInRange _) .none (bound_boundText stopInRange _) ?_
      split
      next isOne =>
        subst isOne
        exact .absent
      next => exact .integer .none (Grammar.integer_ofInt stepInRange rest)
  | wildcard => exact .wildcard
  | filter formed isTest => exact .filter .none (spelled _ rest formed) isTest

/-- Several selectors are written as a list. -/
theorem listed_unionText {selectors : List Segment} (notEmpty : selectors ≠ [])
    (formed : ∀ s ∈ selectors, Selector Formed s) (rest : Text)
    : Listed (Grammar.Selector Nested) (unionText selectors ++ rest) selectors rest := by
  induction selectors with
  | nil => exact absurd rfl notEmpty
  | cons first others ih =>
      have spelledFirst (rest) := selector_selectorText spelled (formed first (by simp)) rest
      cases others with
      | nil => exact .one .none (spelledFirst rest) .none
      | cons second others =>
          rw [unionText, List.append_assoc, List.cons_append]
          · exact .more .none (spelledFirst _) .none
              (ih (by simp) fun s member => formed s (by simp [member]))
          · simp

theorem brackets_selectorText {s : Segment} (h : Selection Formed s) (rest : Text)
    : Grammar.Brackets Nested (.char '[' :: (s.selectorText ++ .char ']' :: rest)) s rest := by
  cases h with
  | selector formed =>
      have spelling := selector_selectorText spelled formed (.char ']' :: rest)
      exact .one (.one .none spelling .none)
  | @union first second others formed =>
      exact .several (listed_unionText spelled (by simp) formed (.char ']' :: rest))

-----------------------------------------------------------------------------------------
-- Segments
-----------------------------------------------------------------------------------------

/-- A selection is spelled in dot notation or between brackets, with a dot of its own unless
it stands directly behind a descent.
-/
theorem segmentsText_selection {s : Segment} (h : Selection Formed s) (segments : List Segment)
    : (∃ front,
        segmentsText false (s :: segments) = .char '.' :: front ++ segmentsText false segments
        ∧ segmentsText true (s :: segments) = front ++ segmentsText false segments
        ∧ ∀ rest, Grammar.Dotted (front ++ rest) s rest)
      ∨ ∃ front,
        (∀ afterDescent,
          segmentsText afterDescent (s :: segments) = front ++ segmentsText false segments)
        ∧ ∀ rest, Grammar.Brackets Nested (front ++ rest) s rest := by
  have bracketed (eq : ∀ afterDescent,
      segmentsText afterDescent (s :: segments)
        = .char '[' :: (s.selectorText ++ .char ']' :: segmentsText false segments))
      : ∃ front,
        (∀ afterDescent,
          segmentsText afterDescent (s :: segments) = front ++ segmentsText false segments)
        ∧ ∀ rest, Grammar.Brackets Nested (front ++ rest) s rest := by
    refine ⟨.char '[' :: s.selectorText ++ [.char ']'], fun afterDescent => ?_, fun rest => ?_⟩
    · simpa using eq afterDescent
    · simpa using brackets_selectorText spelled h rest
  cases s with
  | key name =>
      cases plain : isPlainName name with
      | true =>
          refine .inl ⟨name, ?_, ?_, fun rest => ?_⟩
          · simp [segmentsText, plain]
          · simp [segmentsText, plain]
          · exact .name (Grammar.memberName_of_isPlainName plain rest)
      | false =>
          refine .inr (bracketed fun afterDescent => ?_)
          simp [segmentsText, plain, Segment.selectorText]
  | descendants => cases h with
    | selector formed => cases formed
  | index _ => exact .inr (bracketed fun _ => by simp [segmentsText])
  | slice _ _ _ => exact .inr (bracketed fun _ => by simp [segmentsText])
  | wildcard => exact .inr (bracketed fun _ => by simp [segmentsText])
  | filter _ => exact .inr (bracketed fun _ => by simp [segmentsText])
  | union _ => exact .inr (bracketed fun _ => by simp [segmentsText])

/-- Segments are spelled group by group, by induction on the groups. -/
theorem repeated_segmentsText {query : List Segment} (h : Segments Formed query) (rest : Text)
    : ∃ groups,
      groups.flatten = query
      ∧ Repeated (Grammar.SpacedGroup Nested) (segmentsText false query ++ rest) groups rest := by
  induction h with
  | nil => exact ⟨[], rfl, .none⟩
  | @child s segments first _ ih =>
      obtain ⟨groups, rfl, spelling⟩ := ih
      refine ⟨[s] :: groups, rfl, ?_⟩
      rcases segmentsText_selection spelled first groups.flatten with
        ⟨front, eq, -, dotted⟩ | ⟨front, eq, brackets⟩
      · rw [eq, List.append_assoc]
        exact .more (.mk .none (.dotted (dotted _))) spelling
      · rw [eq, List.append_assoc]
        exact .more (.mk .none (.brackets (brackets _))) spelling
  | @descent s segments first _ ih =>
      obtain ⟨groups, rfl, spelling⟩ := ih
      refine ⟨[.descendants, s] :: groups, rfl, ?_⟩
      have descent : segmentsText false (.descendants :: s :: groups.flatten)
          = .char '.' :: .char '.' :: segmentsText true (s :: groups.flatten) := by
        rw [segmentsText]
        rfl
      rw [descent]
      rcases segmentsText_selection spelled first groups.flatten with
        ⟨front, -, eq, dotted⟩ | ⟨front, eq, brackets⟩
      · rw [eq, List.cons_append, List.cons_append, List.append_assoc]
        exact .more (.mk .none (.dottedDescent (dotted _))) spelling
      · rw [eq, List.cons_append, List.cons_append, List.append_assoc]
        exact .more (.mk .none (.bracketsDescent (brackets _))) spelling

/-- Segments are written group by group. -/
theorem segments_segmentsText {query : List Segment} (h : Segments Formed query) (rest : Text)
    : Grammar.Segments Nested (segmentsText false query ++ rest) query rest := by
  obtain ⟨groups, rfl, spelling⟩ := repeated_segmentsText spelled h rest
  exact .mk spelling

-----------------------------------------------------------------------------------------
-- Expressions
-----------------------------------------------------------------------------------------

/-- Arguments are written as a list. -/
theorem listed_argumentsText {es : List Expression} (notEmpty : es ≠ [])
    (formed : ∀ e ∈ es, Formed e) (rest : Text)
    : Listed Nested (argumentsText es ++ rest) es rest := by
  induction es with
  | nil => exact absurd rfl notEmpty
  | cons first others ih =>
      have spelledFirst (rest) := spelled first rest (formed first (by simp))
      cases others with
      | nil => exact .one .none (spelledFirst rest) .none
      | cons second others =>
          have spelledOthers := ih (by simp) fun e member => formed e (by simp [member])
          rw [argumentsText, List.append_assoc, List.append_assoc]
          · exact .more .none (spelledFirst _) .none
              (Syntax.listed_of_blanks (.more rfl .none) spelledOthers)
          · simp

/-- Arguments are written up to the parenthesis, also when there are none. -/
theorem arguments_argumentsText {es : List Expression} (formed : ∀ e ∈ es, Formed e)
    (rest : Text)
    : Grammar.Arguments Nested (argumentsText es ++ .char ')' :: rest) es rest := by
  cases es with
  | nil => exact .none .none
  | cons e es => exact .some (listed_argumentsText spelled (by simp) formed _)

/-- A well-formed operand is written as the grammar spells it, by cases on its formation. -/
theorem primary_text {e : Expression} (h : Primary Formed e) (rest : Text)
    : Grammar.Primary RenderedLiteral Nested (e.text ++ rest) e rest := by
  cases h with
  | literal isLiteral =>
      rw [Expression.text]
      exact .literal (.mk isLiteral)
  | current formed =>
      rw [Expression.text, List.cons_append]
      exact .current (segments_segmentsText spelled formed rest)
  | root formed =>
      rw [Expression.text, List.cons_append]
      exact .root (segments_segmentsText spelled formed rest)
  | @call name arguments isName formed fitCall =>
      have text : (Expression.call name arguments).text ++ rest
          = name ++ .char '(' :: (argumentsText arguments ++ .char ')' :: rest) := by
        simp [Expression.text, Text.ofString]
      rw [text]
      exact .call isName (arguments_argumentsText spelled formed rest) fitCall

omit spelled in
theorem isDisjunction_of_basic {e : Expression} (h : Basic Formed e)
    : e.isDisjunction = false := by
  cases h with
  | primary formed => cases formed <;> rfl
  | comparison _ _ _ _ => rfl
  | negatedPrimary _ _ _ => rfl
  | negated _ _ _ => rfl

/-- Parentheses around an expression are written as the grammar spells them. -/
theorem parentheses_text {e : Expression} (formed : Formed e) (isTest : e.IsTest) (rest : Text)
    : Grammar.Parentheses Nested (parenthesized true e.text ++ rest) e rest := by
  have text : parenthesized true e.text ++ rest
      = .char '(' :: (e.text ++ .char ')' :: rest) := by simp [parenthesized]
  rw [text]
  exact .mk .none (spelled e _ formed) isTest .none

/-- A well-formed basic expression is written as the grammar spells it. -/
theorem basic_text {e : Expression} (h : Basic Formed e) (rest : Text)
    : Grammar.Basic RenderedLiteral Nested (e.text ++ rest) e rest := by
  cases h with
  | primary formed => exact .primary (primary_text spelled formed rest)
  | @comparison comparator left right formedLeft formedRight leftComparable rightComparable =>
      have text : (Expression.comparison comparator left right).text ++ rest
          = left.text ++ .char ' ' :: (comparator.text ++ .char ' ' :: (right.text ++ rest)) := by
        simp [Expression.text, Text.ofString]
      rw [text]
      exact .comparison (primary_text spelled formedLeft _) (.more rfl .none) (.more rfl .none)
        (primary_text spelled formedRight rest) leftComparable rightComparable
  | negatedPrimary formed isPrimary isTest =>
      rw [Expression.text, isPrimary]
      exact .negatedPrimary .none (primary_text spelled formed rest) isPrimary isTest
  | negated formed notPrimary isTest =>
      rw [Expression.text, notPrimary]
      exact .negatedParentheses .none (parentheses_text spelled formed isTest rest)

/-- An operand of a conjunction is written in parentheses if it is a disjunction. -/
theorem operand_text {e : Expression} (h : Operand Formed e) (isTest : e.IsTest) (rest : Text)
    : Grammar.Basic RenderedLiteral Nested (parenthesized e.isDisjunction e.text ++ rest) e
        rest := by
  cases h with
  | basic formed =>
      rw [isDisjunction_of_basic formed]
      exact basic_text spelled formed rest
  | disjunction formed => exact .parentheses (parentheses_text spelled formed isTest rest)

/-- The operands of a conjunction are written with `&&` between them. -/
theorem joined_conjunctionText {es : List Expression} (notEmpty : es ≠ [])
    (formed : ∀ e ∈ es, Operand Formed e ∧ e.IsTest) (rest : Text)
    : Joined [.char '&', .char '&'] (Grammar.Basic RenderedLiteral Nested)
        (conjunctionText es ++ rest) es rest := by
  induction es with
  | nil => exact absurd rfl notEmpty
  | cons first others ih =>
      obtain ⟨operand, isTest⟩ := formed first (by simp)
      cases others with
      | nil => exact .one (operand_text spelled operand isTest rest)
      | cons second others =>
          have spelledOthers := ih (by simp) fun e member => formed e (by simp [member])
          rw [conjunctionText, List.append_assoc, List.append_assoc]
          · exact .more (operand_text spelled operand isTest _) (.more rfl .none)
              (.more rfl .none) spelledOthers
          · simp

omit spelled in
/-- The operands of a formed conjunction contribute themselves. -/
theorem flatMap_conjuncts {es : List Expression} (formed : ∀ e ∈ es, Operand Formed e)
    : es.flatMap Expression.conjuncts = es := by
  induction es with
  | nil => rfl
  | cons e es ih =>
      have itself : e.conjuncts = [e] := by
        cases formed e (by simp) with
        | basic formed => exact conjuncts_of_basic formed
        | disjunction _ => rfl
      rw [List.flatMap_cons, itself, ih fun a member => formed a (by simp [member])]
      rfl

omit spelled in
/-- Operands of disjunctions are their own disjuncts, one by one. -/
theorem flatMap_disjuncts {es : List Expression} (formed : ∀ e ∈ es, Alternative Formed e)
    : es.flatMap Expression.disjuncts = es := by
  induction es with
  | nil => rfl
  | cons e es ih =>
      rw [List.flatMap_cons, disjuncts_of_alternative (formed e (by simp)),
        ih fun a member => formed a (by simp [member])]
      rfl

/-- An operand of a disjunction is written as a conjunction of the grammar. -/
theorem alternative_text {e : Expression} (h : Alternative Formed e) (rest : Text)
    : Grammar.Conjunction RenderedLiteral Nested (e.text ++ rest) e rest := by
  cases h with
  | basic formed => exact .one (basic_text spelled formed rest)
  | @conjunction first second others formed =>
      have operands := flatMap_conjuncts fun e member => (formed e member).1
      rw [Expression.text]
      exact .several (joined_conjunctionText spelled (by simp) formed rest)
        (fun e member => (formed e member).2) (Grammar.spliced_conjunction_iff.mpr operands.symm)

/-- The operands of a disjunction are written with `||` between them. -/
theorem joined_disjunctionText {es : List Expression} (notEmpty : es ≠ [])
    (formed : ∀ e ∈ es, Alternative Formed e) (rest : Text)
    : Joined [.char '|', .char '|'] (Grammar.Conjunction RenderedLiteral Nested)
        (disjunctionText es ++ rest) es rest := by
  induction es with
  | nil => exact absurd rfl notEmpty
  | cons first others ih =>
      have spelledFirst (rest) := alternative_text spelled (formed first (by simp)) rest
      cases others with
      | nil => exact .one (spelledFirst rest)
      | cons second others =>
          have spelledOthers := ih (by simp) fun e member => formed e (by simp [member])
          rw [disjunctionText, List.append_assoc, List.append_assoc]
          · exact .more (spelledFirst _) (.more rfl .none) (.more rfl .none) spelledOthers
          · simp

/-- A well-formed disjunction is written as the grammar spells it. -/
theorem disjunction_text {e : Expression} (h : Disjunction Formed e) (rest : Text)
    : Grammar.Disjunction RenderedLiteral Nested (e.text ++ rest) e rest := by
  cases h with
  | alternative formed => exact .one (alternative_text spelled formed rest)
  | @disjunction first second others formed =>
      have alternatives := fun e member => (formed e member).1
      have operands := flatMap_disjuncts alternatives
      rw [Expression.text]
      exact .several (joined_disjunctionText spelled (by simp) alternatives rest)
        (fun e member => (formed e member).2) (Grammar.spliced_disjunction_iff.mpr operands.symm)

end Nesting

/-- Formed expressions are spelled at their level of nesting, by induction on it. -/
theorem logical_of_formed {depth : Nat} {e : Expression} (h : Formed depth e) (rest : Text)
    : Grammar.Logical RenderedLiteral depth (e.text ++ rest) e rest := by
  induction depth generalizing e rest with
  | zero => cases h
  | succ depth ih => exact disjunction_text (fun e rest formed => ih formed rest) h rest

/-- A query of well-formed segments is written as the grammar spells it. -/
theorem isQuery_of_segments {depth : Nat} {query : Query} (h : Segments (Formed depth) query)
    : Grammar.IsQuery RenderedLiteral depth query.text query := by
  have spelling := segments_segmentsText (fun e rest formed => logical_of_formed formed rest) h []
  rw [List.append_nil] at spelling
  exact .mk spelling

end JsonPath.Formation
