import JsonPath.Query.Basic
import Mathlib.Data.List.Forall2

/-! Queries that differ at most in their literals. A query is similar to itself when the
literals are related to themselves, provided that queries from the root are allowed or that
it contains none.
-/

namespace JsonPath

section

variable (literal : Value → Value → Prop) (rooted : Prop)

mutual

/-- The segments differ at most in related literals. Queries from the root occur in them only
if that is allowed.
-/
inductive Segment.Similar : Segment → Segment → Prop
  | key {name} : Segment.Similar (.key name) (.key name)
  | index {position} : Segment.Similar (.index position) (.index position)
  | slice {start stop step} : Segment.Similar (.slice start stop step) (.slice start stop step)
  | wildcard : Segment.Similar .wildcard .wildcard
  | filter {test test'} (tests : Expression.Similar test test')
    : Segment.Similar (.filter test) (.filter test')
  | union {selectors selectors'} (parts : List.Forall₂ Segment.Similar selectors selectors')
    : Segment.Similar (.union selectors) (.union selectors')
  | descendants : Segment.Similar .descendants .descendants

/-- The expressions differ at most in related literals. -/
inductive Expression.Similar : Expression → Expression → Prop
  | literal {value value'} (related : literal value value')
    : Expression.Similar (.literal value) (.literal value')
  | current {segments segments'} (parts : List.Forall₂ Segment.Similar segments segments')
    : Expression.Similar (.current segments) (.current segments')
  | root {segments segments'} (allowed : rooted)
    (parts : List.Forall₂ Segment.Similar segments segments')
    : Expression.Similar (.root segments) (.root segments')
  | comparison {comparator left left' right right'} (first : Expression.Similar left left')
    (second : Expression.Similar right right')
    : Expression.Similar (.comparison comparator left right)
        (.comparison comparator left' right')
  | conjunction {operands operands'}
    (parts : List.Forall₂ Expression.Similar operands operands')
    : Expression.Similar (.conjunction operands) (.conjunction operands')
  | disjunction {operands operands'}
    (parts : List.Forall₂ Expression.Similar operands operands')
    : Expression.Similar (.disjunction operands) (.disjunction operands')
  | negation {operand operand'} (operands : Expression.Similar operand operand')
    : Expression.Similar (.negation operand) (.negation operand')
  | call {name arguments arguments'}
    (parts : List.Forall₂ Expression.Similar arguments arguments')
    : Expression.Similar (.call name arguments) (.call name arguments')

end

/-- The queries differ at most in related literals. -/
abbrev Query.Similar : Query → Query → Prop :=
  List.Forall₂ (Segment.Similar literal rooted)

end

/-- Similar segments are both descents or both selectors. -/
theorem Segment.Similar.isDescendants_eq {literal : Value → Value → Prop} {rooted : Prop}
    {segment segment' : Segment} (h : segment.Similar literal rooted segment')
    : segment.isDescendants = segment'.isDescendants := by
  cases h <;> rfl

-----------------------------------------------------------------------------------------
-- Queries from the root
-----------------------------------------------------------------------------------------

mutual

/-- Whether no filter in the segment, at any depth, contains a query from the root. -/
def Segment.isRootFree : Segment → Bool
  | .filter test => test.isRootFree
  | .union selectors => segmentsRootFree selectors
  | _ => true

def segmentsRootFree : List Segment → Bool
  | [] => true
  | segment :: segments => segment.isRootFree && segmentsRootFree segments

/-- Whether the expression contains no query from the root, at any depth. -/
def Expression.isRootFree : Expression → Bool
  | .literal _ => true
  | .current segments => segmentsRootFree segments
  | .root _ => false
  | .comparison _ left right => left.isRootFree && right.isRootFree
  | .conjunction operands => expressionsRootFree operands
  | .disjunction operands => expressionsRootFree operands
  | .negation operand => operand.isRootFree
  | .call _ arguments => expressionsRootFree arguments

def expressionsRootFree : List Expression → Bool
  | [] => true
  | e :: es => e.isRootFree && expressionsRootFree es

end

/-- Whether no filter in the query, at any depth, contains a query from the root. -/
def Query.isRootFree (query : Query) : Bool :=
  segmentsRootFree query

section

variable {literal : Value → Value → Prop} {rooted : Prop}

mutual

/-- A segment is similar to itself, unless its filters look at roots that may differ. -/
theorem Segment.similar_self (reflexive : ∀ value, literal value value) (segment : Segment)
    (h : rooted ∨ segment.isRootFree)
    : segment.Similar literal rooted segment := by
  cases segment with
  | key _ => exact .key
  | index _ => exact .index
  | slice _ _ _ => exact .slice
  | wildcard => exact .wildcard
  | filter test => exact .filter (test.similar_self reflexive h)
  | union selectors => exact .union (Query.similar_self reflexive selectors h)
  | descendants => exact .descendants
termination_by structural segment

/-- A query is similar to itself, segment by segment. -/
theorem Query.similar_self (reflexive : ∀ value, literal value value) (segments : Query)
    (h : rooted ∨ segments.isRootFree)
    : Query.Similar literal rooted segments segments := by
  cases segments with
  | nil => exact .nil
  | cons segment segments =>
      simp only [Query.isRootFree, segmentsRootFree, Bool.and_eq_true, or_and_left] at h
      exact .cons (segment.similar_self reflexive h.1)
        (Query.similar_self reflexive segments h.2)
termination_by structural segments

/-- An expression is similar to itself, by recursion on the expression. -/
theorem Expression.similar_self (reflexive : ∀ value, literal value value) (e : Expression)
    (h : rooted ∨ e.isRootFree)
    : e.Similar literal rooted e := by
  cases e with
  | literal value => exact .literal (reflexive value)
  | current segments => exact .current (Query.similar_self reflexive segments h)
  | root segments =>
      have allowed : rooted := h.resolve_right nofun
      exact .root allowed (Query.similar_self reflexive segments (.inl allowed))
  | comparison _ left right =>
      simp only [Expression.isRootFree, Bool.and_eq_true, or_and_left] at h
      exact .comparison (left.similar_self reflexive h.1) (right.similar_self reflexive h.2)
  | conjunction operands =>
      exact .conjunction (Expression.forall₂_similar_self reflexive operands h)
  | disjunction operands =>
      exact .disjunction (Expression.forall₂_similar_self reflexive operands h)
  | negation operand => exact .negation (operand.similar_self reflexive h)
  | call _ arguments => exact .call (Expression.forall₂_similar_self reflexive arguments h)
termination_by structural e

/-- Operands and arguments are similar to themselves, one by one. -/
theorem Expression.forall₂_similar_self (reflexive : ∀ value, literal value value)
    (es : List Expression) (h : rooted ∨ expressionsRootFree es)
    : List.Forall₂ (Expression.Similar literal rooted) es es := by
  cases es with
  | nil => exact .nil
  | cons e es =>
      simp only [expressionsRootFree, Bool.and_eq_true, or_and_left] at h
      exact .cons (e.similar_self reflexive h.1)
        (Expression.forall₂_similar_self reflexive es h.2)
termination_by structural es

end

end

end JsonPath
