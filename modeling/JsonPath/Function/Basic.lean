import JsonPath.Function.Signature
import JsonPath.Query.Printer
import JsonPath.Value.Basic

/-! Functions that filters can call. The kind of a function's result is that of its body. -/

namespace JsonPath

/-- Why the evaluation of a query fails. -/
inductive EvaluationError where
  | unknownFunction (name : Text)
  | argumentCount (name : Text) (expected found : Nat)
  | raised (name : Text)
  | valueTest (name : Text)
  | notTest (e : Expression)
  | logicalComparison (name : Text)
  | noValue (e : Expression)
  | notNodes (e : Expression)
  | descentInUnion
  | danglingDescent
  /-- A match is required and missing, as the message says. -/
  | noMatch (message : Text)

namespace EvaluationError

/-- The kind of error, as it is reported. -/
def label : EvaluationError → Text
  | unknownFunction _ => "UnknownFunctionError"
  | danglingDescent => "InvalidPathBuilderArgument"
  | noMatch _ => "NoMatchError"
  | _ => "EvaluationError"

/-- The cause in words. -/
def message : EvaluationError → Text
  | unknownFunction name => "Unknown function " ++ name ++ "()."
  | argumentCount name expected found =>
    "Function " ++ name ++ "() takes " ++ Numeral.ofNat expected ++ " arguments, got "
      ++ Numeral.ofNat found ++ "."
  | raised name => "Function " ++ name ++ "() raised an exception."
  | valueTest name =>
    "Function " ++ name ++ "() returns a value, it cannot be used as a test."
  | notTest e => "Expression `" ++ e.text ++ "` cannot be used as a test."
  | logicalComparison name =>
    "Function " ++ name ++ "() returns a logical, it cannot be compared."
  | noValue e => "Expression `" ++ e.text ++ "` does not produce a value."
  | notNodes e => "Argument `" ++ e.text ++ "` is not a query, expected " ++ Kind.nodes.text ++ "."
  | descentInUnion => "Unsupported segment DeepScan()."
  | danglingDescent => "The descendant operator must be followed by a selector."
  | noMatch message => message

end EvaluationError

/-- An argument of a call. A value can be absent, and nodes are given as their values. -/
inductive Argument where
  | value (value : Option Value)
  | logical (b : Bool)
  | nodes (values : List Value)

def Argument.kind : Argument → Kind
  | value _ => .value
  | logical _ => .logical
  | nodes _ => .nodes

/-- How a call can fail: with an error that is passed on as it is, or for a reason of its
own.
-/
inductive CallFailure where
  | error (error : EvaluationError)
  | raised

/-- What a function computes from its arguments, by the kind of its result. -/
inductive Body where
  | value (run : List Argument → Except CallFailure (Option Value))
  | logical (run : List Argument → Except CallFailure Bool)
  | nodes (run : List Argument → Except CallFailure (List Value))

/-- A function with the kinds of arguments it takes. -/
structure Function where
  parameters : List Kind
  body : Body

def Function.result (function : Function) : Kind :=
  match function.body with
  | .value _ => .value
  | .logical _ => .logical
  | .nodes _ => .nodes

end JsonPath
