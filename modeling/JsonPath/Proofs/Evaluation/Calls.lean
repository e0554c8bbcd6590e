import JsonPath.Proofs.Evaluation.Soundness

/-! The functions that queries call. Those that every query can call have a result for all
arguments, or receive a pattern beyond the limits.
-/

namespace JsonPath

mutual

/-- The names of the functions called in a segment, at any depth. -/
def Segment.calls : Segment → List Text
  | .filter test => test.calls
  | .union selectors => segmentsCalls selectors
  | _ => []

def segmentsCalls : List Segment → List Text
  | [] => []
  | segment :: segments => segment.calls ++ segmentsCalls segments

/-- The names of the functions called in an expression, at any depth. -/
def Expression.calls : Expression → List Text
  | .literal _ => []
  | .current segments => segmentsCalls segments
  | .root segments => segmentsCalls segments
  | .comparison _ left right => left.calls ++ right.calls
  | .conjunction operands => expressionsCalls operands
  | .disjunction operands => expressionsCalls operands
  | .negation operand => operand.calls
  | .call name arguments => name :: expressionsCalls arguments

def expressionsCalls : List Expression → List Text
  | [] => []
  | e :: es => e.calls ++ expressionsCalls es

end

/-- The names of the functions called in a query, at any depth. -/
def Query.calls (query : Query) : List Text :=
  segmentsCalls query

namespace Evaluation

-----------------------------------------------------------------------------------------
-- Functions
-----------------------------------------------------------------------------------------

section Functions

variable {usual : Pattern.Compiler} {called : List Text} (name : Text)

/-- A pattern that is beyond the limits of the host makes its test fail with an error of the
function.
-/
theorem breaks_testPattern (test : Pattern → Text → Bool) (t : Text) {pattern : Text}
    (beyond : Pattern.IsBeyondLimits usual pattern)
    : Breaks usual
        (fun compile => (Builtin.testPattern compile test t pattern).mapError (·.toError name))
        name pattern := by
  refine ⟨beyond, ?_, ?_⟩
  · obtain ⟨fault, read, notInvalid⟩ := beyond
    rw [Builtin.testPattern, read]
    cases fault with
    | invalid => exact absurd rfl notInvalid
    | oversizedNumber => rfl
    | tooDeep => rfl
  · rw [Builtin.testPattern, Pattern.compileBut_self]
    rfl

/-- A pattern within the limits has an outcome that does not depend on the compiler. -/
theorem settles_testPattern (test : Pattern → Text → Bool) (t : Text) {pattern : Text}
    (within : ¬Pattern.IsBeyondLimits usual pattern)
    : ∃ b, Settles usual
        (fun compile => (Builtin.testPattern compile test t pattern).mapError (·.toError name))
        (.ok b) := by
  have result : ∃ b, Builtin.testPattern usual test t pattern = .ok b := by
    rw [Builtin.testPattern]
    cases read : usual pattern with
    | ok _ => exact ⟨_, rfl⟩
    | error fault =>
        cases fault with
        | invalid => exact ⟨_, rfl⟩
        | oversizedNumber => exact absurd ⟨_, read, by decide⟩ within
        | tooDeep => exact absurd ⟨_, read, by decide⟩ within
  obtain ⟨b, result⟩ := result
  refine ⟨b, ?_, fun excluded beyond => ?_⟩
  · dsimp only
    rw [result]
    rfl
  · have same : Builtin.testPattern (Pattern.compileBut usual excluded) test t pattern
        = Builtin.testPattern usual test t pattern := by
      rw [Builtin.testPattern, Pattern.compileBut_eq beyond within, Builtin.testPattern]
    dsimp only
    rw [same, result]
    rfl

/-- Anything but two strings does not pass a test. -/
theorem testString_of_not_strings {compile : Pattern.Compiler}
    {test : Pattern → Text → Bool} {arguments : List Argument}
    (noStrings
      : ¬∃ t pattern,
          arguments = [.value (some (.string t)), .value (some (.string pattern))])
    : Builtin.testString compile test arguments = .ok false := by
  unfold Builtin.testString
  split
  next t pattern => exact absurd ⟨t, pattern, rfl⟩ noStrings
  next => rfl

/-- Only a pattern beyond the limits breaks a test. -/
theorem sound_testString (test : Pattern → Text → Bool) (arguments : List Argument)
    : Sound usual called fun compile =>
        (Builtin.testString compile test arguments).mapError (·.toError name) := by
  by_cases strings : ∃ t pattern,
      arguments = [.value (some (.string t)), .value (some (.string pattern))]
  · obtain ⟨t, pattern, rfl⟩ := strings
    by_cases beyond : Pattern.IsBeyondLimits usual pattern
    · exact .raised (breaks_testPattern name test t beyond)
    · obtain ⟨b, settles⟩ := settles_testPattern name test t beyond
      exact .found settles
  · simp only [testString_of_not_strings strings]
    exact .ok false

/-- A function that has a result for all arguments breaks nothing. -/
theorem sound_total {α : Type} {run : List Argument → Except CallFailure α}
    (total : ∀ arguments, ∃ a, run arguments = .ok a) (arguments : List Argument)
    : Sound usual called fun _ => (run arguments).mapError (·.toError name) := by
  obtain ⟨a, result⟩ := total arguments
  rw [result]
  exact .ok a

/-- The length of any arguments has a value or none, but no error. -/
theorem total_lengthOf (arguments : List Argument)
    : ∃ value, Builtin.lengthOf arguments = .ok value := by
  unfold Builtin.lengthOf
  split <;> exact ⟨_, rfl⟩

theorem total_countOf (arguments : List Argument)
    : ∃ value, Builtin.countOf arguments = .ok value := by
  unfold Builtin.countOf
  split <;> exact ⟨_, rfl⟩

/-- Taking the only value never fails. -/
theorem total_onlyValue (arguments : List Argument)
    : ∃ value, Builtin.onlyValue arguments = .ok value := by
  unfold Builtin.onlyValue
  split <;> exact ⟨_, rfl⟩

end Functions

-----------------------------------------------------------------------------------------
-- Calls
-----------------------------------------------------------------------------------------

section Calls

/-- A call with the right number of arguments evaluates them and runs the function. -/
theorem call_eq {α : Type} {name : Text} {function : Function} {count : Nat}
    {arguments : Except EvaluationError (List Argument)}
    {run : List Argument → Except CallFailure α} (fits : count = function.parameters.length)
    : call name function count arguments run
        = arguments >>= fun found => (run found).mapError (·.toError name) := by
  unfold call
  rw [if_neg (not_not_intro fits)]
  cases arguments <;> rfl

variable {context : Context} {name : Text} {es : List Expression} {function : Function}

/-- A call of a logical function holds if the function says so of its arguments. -/
theorem holds_call (known : context.function? name = some function)
    {run : List Argument → Except CallFailure Bool} (body : function.body = .logical run)
    (current : Value)
    : (Expression.call name es).holds context current
        = call name function es.length (arguments context es function.parameters current)
            run := by
  rw [Expression.holds, known]
  dsimp only
  rw [body]

/-- A call of a function with a value has the value that the function gives for its arguments.
-/
theorem value_call (known : context.function? name = some function)
    {run : List Argument → Except CallFailure (Option Value)} (body : function.body = .value run)
    (current : Value)
    : (Expression.call name es).value context current
        = call name function es.length (arguments context es function.parameters current)
            run := by
  rw [Expression.value, known]
  dsimp only
  rw [body]

end Calls

end Evaluation

end JsonPath
