import JsonPath.Function.Extension
import JsonPath.Proofs.Evaluation.Interchange
import JsonPath.Proofs.Formation.Literals
import JsonPath.Query.Equivalence

/-! Equal queries find the same nodes, provided that they have truth values at the same
places. Equality of queries takes truth values for the numbers 0 and 1, and evaluation does
not, so that a query with a truth value is equal to one with a number that finds something
else. All other equal literals of parsed queries are interchangeable.
-/

namespace JsonPath

open Outcome (Related)

-----------------------------------------------------------------------------------------
-- Equal literals
-----------------------------------------------------------------------------------------

namespace Value

def isBool : Value → Bool
  | bool _ => true
  | _ => false

/-- Both are truth values, or none is. -/
def SameTruth (a b : Value) : Prop :=
  a.isBool = b.isBool

/-- Literals are scalars. -/
theorem isScalar_of_isLiteral (value : Value) (h : value.IsLiteral) : value.isScalar := by
  cases value with
  | array _ | object _ => cases h
  | _ => rfl

/-- Scalars have no member names to be repeated. -/
theorem isKeyed_of_isScalar {value : Value} (h : value.isScalar) : value.IsKeyed := by
  cases value with
  | null => exact .null
  | bool _ => exact .bool
  | number _ => exact .number
  | string _ => exact .string
  | array _ | object _ => cases h

/-- Truth values count as different numbers. -/
theorem eq_of_bool_isAlike {t t' : Bool} (alike : (bool t).isAlike (bool t')) : t = t' := by
  cases t with
  | true =>
      cases t' with
      | true => rfl
      | false => exact absurd alike (by decide +kernel)
  | false =>
      cases t' with
      | true => exact absurd alike (by decide +kernel)
      | false => rfl

/-- Values that count as the same number are equal if both or none of them are truth values.
-/
theorem isEqual_of_isAlike {a b : Value} (scalar : a.isScalar) (alike : a.isAlike b)
    (truths : a.SameTruth b)
    : a.isEqual b ∧ b.isScalar := by
  cases a with
  | array _ | object _ => cases scalar
  | bool t =>
      cases b with
      | bool t' => simp [isEqual, isScalar, eq_of_bool_isAlike alike]
      | _ => cases truths
  | null | number _ | string _ =>
      cases b <;> simp_all [SameTruth, isBool, isAlike, asNumber?, isEqual, isScalar]

/-- Literals that compare as equal and are both truth values or none can be exchanged. -/
theorem interchangeable_of_isAlike {a b : Value} (scalar : a.isScalar) (alike : a.isAlike b)
    (truths : a.SameTruth b)
    : Interchangeable a b := by
  obtain ⟨equal, otherScalar⟩ := isEqual_of_isAlike scalar alike truths
  exact .equal ⟨isKeyed_of_isScalar scalar, isKeyed_of_isScalar otherScalar, equal⟩

end Value

-----------------------------------------------------------------------------------------
-- Equal queries
-----------------------------------------------------------------------------------------

mutual

/-- The literals of equal segments are interchangeable when they have no parts and truth
values stand at the same places, by induction on one of the segments.
-/
theorem Segment.interchangeable_of_isAlike (segment : Segment) {other : Segment}
    (alike : segment.isAlike other) (truths : segment.Similar Value.SameTruth True other)
    (scalars : segment.allLiterals Value.isScalar)
    : segment.Similar Value.Interchangeable True other := by
  cases segment with
  | key _ => cases truths; exact .key
  | index _ => cases truths; exact .index
  | slice _ _ _ => cases truths; exact .slice
  | wildcard => cases truths; exact .wildcard
  | descendants => cases truths; exact .descendants
  | filter test =>
      cases truths with
      | filter tests =>
          rw [Segment.isAlike] at alike
          exact .filter (test.interchangeable_of_isAlike alike tests scalars)
  | union selectors =>
      cases truths with
      | union parts =>
          rw [Segment.isAlike] at alike
          exact .union (segments_interchangeable selectors alike parts scalars)
termination_by structural segment

theorem segments_interchangeable (segments : List Segment) {others : List Segment}
    (alike : segmentsAlike segments others)
    (truths : Query.Similar Value.SameTruth True segments others)
    (scalars : segmentsAllLiterals Value.isScalar segments)
    : Query.Similar Value.Interchangeable True segments others := by
  cases segments with
  | nil =>
      cases truths
      exact .nil
  | cons segment segments =>
      cases truths with
      | cons first rest =>
          simp only [segmentsAlike, Bool.and_eq_true] at alike
          simp only [segmentsAllLiterals, Bool.and_eq_true] at scalars
          exact .cons (segment.interchangeable_of_isAlike alike.1 first scalars.1)
            (segments_interchangeable segments alike.2 rest scalars.2)
termination_by structural segments

/-- Expressions that compare as equal can be exchanged, by induction on the expression. -/
theorem Expression.interchangeable_of_isAlike (e : Expression) {other : Expression}
    (alike : e.isAlike other) (truths : e.Similar Value.SameTruth True other)
    (scalars : e.allLiterals Value.isScalar)
    : e.Similar Value.Interchangeable True other := by
  cases e with
  | literal value =>
      cases truths with
      | literal same =>
          rw [Expression.isAlike] at alike
          exact .literal (Value.interchangeable_of_isAlike scalars alike same)
  | current segments =>
      cases truths with
      | current parts =>
          rw [Expression.isAlike] at alike
          exact .current (segments_interchangeable segments alike parts scalars)
  | root segments =>
      cases truths with
      | root allowed parts =>
          rw [Expression.isAlike] at alike
          exact .root allowed (segments_interchangeable segments alike parts scalars)
  | comparison comparator left right =>
      cases truths with
      | comparison first second =>
          simp only [Expression.isAlike, Bool.and_eq_true] at alike
          simp only [Expression.allLiterals, Bool.and_eq_true] at scalars
          exact .comparison (left.interchangeable_of_isAlike alike.1.2 first scalars.1)
            (right.interchangeable_of_isAlike alike.2 second scalars.2)
  | conjunction operands =>
      cases truths with
      | conjunction parts =>
          rw [Expression.isAlike] at alike
          exact .conjunction (expressions_interchangeable operands alike parts scalars)
  | disjunction operands =>
      cases truths with
      | disjunction parts =>
          rw [Expression.isAlike] at alike
          exact .disjunction (expressions_interchangeable operands alike parts scalars)
  | negation operand =>
      cases truths with
      | negation operands =>
          rw [Expression.isAlike] at alike
          exact .negation (operand.interchangeable_of_isAlike alike operands scalars)
  | call name arguments =>
      cases truths with
      | call parts =>
          simp only [Expression.isAlike, Bool.and_eq_true] at alike
          exact .call (expressions_interchangeable arguments alike.2 parts scalars)
termination_by structural e

theorem expressions_interchangeable (es : List Expression) {others : List Expression}
    (alike : expressionsAlike es others)
    (truths : List.Forall₂ (Expression.Similar Value.SameTruth True) es others)
    (scalars : expressionsAllLiterals Value.isScalar es)
    : List.Forall₂ (Expression.Similar Value.Interchangeable True) es others := by
  cases es with
  | nil =>
      cases truths
      exact .nil
  | cons e es =>
      cases truths with
      | cons first rest =>
          simp only [expressionsAlike, Bool.and_eq_true] at alike
          simp only [expressionsAllLiterals, Bool.and_eq_true] at scalars
          exact .cons (e.interchangeable_of_isAlike alike.1 first scalars.1)
            (expressions_interchangeable es alike.2 rest scalars.2)
termination_by structural es

end

-----------------------------------------------------------------------------------------
-- What equal queries find
-----------------------------------------------------------------------------------------

/-- Two evaluations on one document, in the same order, of queries with interchangeable
literals.
-/
def equalQueries : Likeness :=
  .interchange .same Eq Value.Interchangeable

/-- No registered function tells interchangeable arguments apart, as one could that looks at
the spelling of a number.
-/
def Registry.IsFair (registry : Registry) : Prop :=
  ∀ entry ∈ registry, equalQueries.Body entry.2.body entry.2.body

theorem interchangeable_of_eq {a b : Value} (same : a = b) : Value.Interchangeable a b :=
  same ▸ .same

/-- Under every name a fair registry has a function that treats equal arguments alike. -/
theorem Registry.IsFair.function? {registry : Registry} (fair : registry.IsFair) (name : Text)
    : Option.Rel equalQueries.Function (registry.function? name) (registry.function? name) := by
  unfold Registry.function?
  cases Builtin.ofName? name with
  | some builtin =>
      exact .some ⟨rfl, Likeness.body_builtin interchangeable_of_eq Pattern.compile builtin⟩
  | none =>
      cases found : registry.lookup name with
      | none => exact .none
      | some function =>
          obtain ⟨_, _, rfl, _⟩ := List.lookup_eq_some_iff.mp found
          exact .some ⟨rfl, fair (name, function) (by simp)⟩

/-- A parsed query and an equal one with truth values at the same places find the same nodes
in every document, or fail in the same way.
-/
theorem Query.find_eq_of_isEqual {depth : Nat} {t : Text} {query other : Query}
    (parsed : parseWithin depth t = .ok query) (equal : query.isEqual other)
    (truths : query.Similar Value.SameTruth True other) {registry : Registry}
    (fair : registry.IsFair) (document : Value)
    : Related EvaluationError.Alike Eq (query.find document registry)
        (other.find document registry) := by
  have scalars := allLiterals_of_parseWithin Value.isScalar_of_isLiteral parsed
  rw [allLiterals, ← segmentsAllLiterals_eq] at scalars
  have similar := segments_interchangeable query equal truths scalars
  have sim : equalQueries.Simulates (.of document registry) (.of document registry) :=
    Likeness.simulates_interchange interchangeable_of_eq (Likeness.keepsParts_of_eq rfl) id rfl
      fair.function?
  have start : equalQueries.Found [⟨document, []⟩] [⟨document, []⟩] := Likeness.found_start rfl
  have related := Likeness.related_apply sim query similar start
  exact related.imp (fun _ _ errors => errors) fun _ _ => Likeness.eq_of_found rfl rfl

def negateName : Text :=
  [.char 'n', .char 'e', .char 'g', .char 'a', .char 't', .char 'e']

/-- Spells a filter for what is not zero. -/
def zeroText : Text :=
  [.char '$', .char '[', .char '?', .char 'n', .char 'e', .char 'g', .char 'a', .char 't',
    .char 'e', .char '(', .char '@', .char '=', .char '=', .char '0', .char ')',
    .char ']']

def zeroQuery : Query :=
  [.filter (.call negateName [.comparison .equal (.current []) (.literal (.number (.int 0)))])]

/-- The same filter with a floating point number. -/
def floatZeroQuery : Query :=
  [.filter (.call negateName
    [.comparison .equal (.current []) (.literal (.number (.float (.ofDecimal false 0 0))))])]

theorem isFair_negate : Registry.IsFair [(negateName, Extension.negate)] := by
  intro entry member
  obtain rfl := List.mem_singleton.mp member
  refine .logical fun found found' alike => ?_
  rcases alike with _ | ⟨_ | _ | _, _ | _⟩
  all_goals exact .ok rfl

/-- Spelled as an integer or as a floating point number, zero filters the same. -/
theorem Query.find_zeroQuery
    : parseWithin 2 zeroText = .ok zeroQuery
      ∧ zeroQuery.isEqual floatZeroQuery
      ∧ zeroQuery.Similar Value.SameTruth True floatZeroQuery
      ∧ Registry.IsFair [(negateName, Extension.negate)]
      ∧ Related EvaluationError.Alike Eq
          (zeroQuery.find (.array [.bool false, .number (.int 0)])
            [(negateName, Extension.negate)])
          (floatZeroQuery.find (.array [.bool false, .number (.int 0)])
            [(negateName, Extension.negate)]) := by
  have parsed : parseWithin 2 zeroText = .ok zeroQuery := rfl
  have equal : zeroQuery.isEqual floatZeroQuery := by
    simp only [isEqual, zeroQuery, floatZeroQuery, segmentsAlike, Segment.isAlike,
      Expression.isAlike, expressionsAlike, Value.isAlike, Value.asNumber?]
    decide +kernel
  have truths : zeroQuery.Similar Value.SameTruth True floatZeroQuery :=
    .cons (.filter (.call (.cons (.comparison (.current .nil) (.literal rfl)) .nil))) .nil
  refine ⟨parsed, equal, truths, isFair_negate, ?_⟩
  exact find_eq_of_isEqual parsed equal truths isFair_negate _

/-- Spells a filter for what is equal to one. -/
def oneText : Text :=
  [.char '$', .char '[', .char '?', .char '@', .char '=', .char '=', .char '1', .char ']']

def oneQuery : Query :=
  [.filter (.comparison .equal (.current []) (.literal (.number (.int 1))))]

/-- Spells a filter for what is true. -/
def trueText : Text :=
  [.char '$', .char '[', .char '?', .char '@', .char '=', .char '=', .char 't', .char 'r',
    .char 'u', .char 'e', .char ']']

def trueQuery : Query :=
  [.filter (.comparison .equal (.current []) (.literal (.bool true)))]

/-- A query with a truth value is equal to one with a number, and finds something else. -/
theorem Query.find_ne_of_isEqual
    : parseWithin 1 oneText = .ok oneQuery
      ∧ parseWithin 1 trueText = .ok trueQuery
      ∧ oneQuery.isEqual trueQuery
      ∧ oneQuery.find (.array [.number (.int 1), .bool true]) []
          = .ok [⟨.number (.int 1), [.position 0]⟩]
      ∧ trueQuery.find (.array [.number (.int 1), .bool true]) []
          = .ok [⟨.bool true, [.position 1]⟩] := by
  have equal : oneQuery.isEqual trueQuery := by
    simp [isEqual, oneQuery, trueQuery, segmentsAlike, Segment.isAlike, Expression.isAlike,
      Value.isAlike, Value.asNumber?, Number.isEqual]
  refine ⟨rfl, rfl, equal, ?_, rfl⟩
  simp [find, oneQuery, apply, collect, Segment.select, Node.children, Node.ofElements, keep,
    Expression.holds, Expression.value, single, Comparator.holds, Comparator.areEqual,
    Value.isEqual, Number.isEqual, bind, Except.bind, pure, Except.pure]

end JsonPath
