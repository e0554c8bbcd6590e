import JsonPath.Query.Basic
import Mathlib.Data.List.Basic

/-! The values that literals can have, and what holds of all literals of a query or an
expression, at any depth: in filters, in unions and in the arguments of calls.
-/

namespace JsonPath

namespace Value

/-- A literal of a query can have the value: it has no parts, and an integer has no more
digits than can be read.
-/
def IsLiteral : Value → Prop
  | null => True
  | bool _ => True
  | number (.int n) => (Numeral.ofNat n.natAbs).length ≤ Numeral.longest
  | number (.float _) => True
  | string _ => True
  | array _ => False
  | object _ => False

/-- Every number but the infinities, and every value that is no number. -/
def isFinite : Value → Bool
  | number n => !n.isInfinite
  | _ => true

end Value

mutual

/-- Whether all literals in a segment are good. -/
def Segment.allLiterals (good : Value → Bool) : Segment → Bool
  | .filter test => test.allLiterals good
  | .union selectors => segmentsAllLiterals good selectors
  | _ => true

def segmentsAllLiterals (good : Value → Bool) : List Segment → Bool
  | [] => true
  | segment :: segments => segment.allLiterals good && segmentsAllLiterals good segments

/-- Whether all literals in an expression are good. -/
def Expression.allLiterals (good : Value → Bool) : Expression → Bool
  | .literal value => good value
  | .current segments => segmentsAllLiterals good segments
  | .root segments => segmentsAllLiterals good segments
  | .comparison _ left right => left.allLiterals good && right.allLiterals good
  | .conjunction operands => expressionsAllLiterals good operands
  | .disjunction operands => expressionsAllLiterals good operands
  | .negation operand => operand.allLiterals good
  | .call _ arguments => expressionsAllLiterals good arguments

def expressionsAllLiterals (good : Value → Bool) : List Expression → Bool
  | [] => true
  | e :: es => e.allLiterals good && expressionsAllLiterals good es

end

variable {good : Value → Bool}

/-- All literals of the segments are good when those of each one are, by induction on the
segments.
-/
@[simp] theorem segmentsAllLiterals_eq (segments : List Segment)
    : segmentsAllLiterals good segments = segments.all (Segment.allLiterals good) := by
  induction segments with
  | nil => simp [segmentsAllLiterals]
  | cons segment segments ih => simp [segmentsAllLiterals, ih]

/-- All literals of the expressions are good when those of each one are, by induction on these.
-/
@[simp] theorem expressionsAllLiterals_eq (es : List Expression)
    : expressionsAllLiterals good es = es.all (Expression.allLiterals good) := by
  induction es with
  | nil => simp [expressionsAllLiterals]
  | cons e es ih => simp [expressionsAllLiterals, ih]

/-- Whether all literals in a query are good. -/
def Query.allLiterals (good : Value → Bool) (query : Query) : Bool :=
  query.all (Segment.allLiterals good)

namespace Segment

/-- A selection has the literals of its selectors, even if it is a single one. -/
theorem allLiterals_ofSelection (selectors : List Segment)
    : (ofSelection selectors).allLiterals good = selectors.all (allLiterals good) := by
  unfold ofSelection
  split
  next => simp
  next => simp [allLiterals]

end Segment

namespace Expression

/-- An expression has the literals of its conjuncts. -/
theorem allLiterals_conjuncts (e : Expression)
    : e.conjuncts.all (allLiterals good) = e.allLiterals good := by
  cases e <;> simp [conjuncts, allLiterals]

/-- Conjoining operands keeps their literals, whether they are merged or not. -/
theorem allLiterals_conjoin (operands : List Expression)
    : (conjoin operands).allLiterals good = operands.all (allLiterals good) := by
  unfold conjoin
  split
  next => simp
  next => simp [allLiterals, List.all_flatMap, allLiterals_conjuncts]

/-- An expression has the literals of its disjuncts. -/
theorem allLiterals_disjuncts (e : Expression)
    : e.disjuncts.all (allLiterals good) = e.allLiterals good := by
  cases e <;> simp [disjuncts, allLiterals]

/-- Disjoining operands keeps their literals, whether they are merged or not. -/
theorem allLiterals_disjoin (operands : List Expression)
    : (disjoin operands).allLiterals good = operands.all (allLiterals good) := by
  unfold disjoin
  split
  next => simp
  next => simp [allLiterals, List.all_flatMap, allLiterals_disjuncts]

end Expression

mutual

/-- No literal is bad when every value is good. -/
theorem Segment.allLiterals_true (segment : Segment)
    : segment.allLiterals (fun _ => true) = true := by
  cases segment with
  | filter test => exact test.allLiterals_true
  | union selectors => exact segmentsAllLiterals_true selectors
  | key _ => rfl
  | index _ => rfl
  | slice _ _ _ => rfl
  | wildcard => rfl
  | descendants => rfl

theorem segmentsAllLiterals_true (segments : List Segment)
    : segmentsAllLiterals (fun _ => true) segments = true := by
  cases segments with
  | nil => rfl
  | cons segment segments =>
      simp only [segmentsAllLiterals, segment.allLiterals_true,
        segmentsAllLiterals_true segments, Bool.and_self]

theorem Expression.allLiterals_true (e : Expression)
    : e.allLiterals (fun _ => true) = true := by
  cases e with
  | literal _ => rfl
  | current segments => exact segmentsAllLiterals_true segments
  | root segments => exact segmentsAllLiterals_true segments
  | comparison _ left right =>
      simp only [Expression.allLiterals, left.allLiterals_true, right.allLiterals_true,
        Bool.and_self]
  | conjunction operands => exact expressionsAllLiterals_true operands
  | disjunction operands => exact expressionsAllLiterals_true operands
  | negation operand => exact operand.allLiterals_true
  | call _ arguments => exact expressionsAllLiterals_true arguments

theorem expressionsAllLiterals_true (es : List Expression)
    : expressionsAllLiterals (fun _ => true) es = true := by
  cases es with
  | nil => rfl
  | cons e es =>
      simp only [expressionsAllLiterals, e.allLiterals_true, expressionsAllLiterals_true es,
        Bool.and_self]

end

/-- Every query satisfies the condition that asks nothing of its literals. -/
theorem Query.allLiterals_true (query : Query)
    : query.allLiterals (fun _ => true) = true := by
  rw [allLiterals, ← segmentsAllLiterals_eq]
  exact segmentsAllLiterals_true query

end JsonPath
