import JsonPath.Evaluation.Basic
import JsonPath.Function.Builtin
import JsonPath.Query.Lexeme

/-! Functions under names of one's own: what can be registered under a name, and which
function a name calls then.
-/

namespace JsonPath

/-- What is offered as a function. -/
inductive Candidate where
  /-- Something that has no signature, as it is shown. -/
  | foreign (shown : Text)
  /-- Something whose signature is not one of kinds. -/
  | untyped
  /-- A function that needs some arguments and accepts a few more. -/
  | declared (function : Function) (needed optional : Nat)

/-- A function offered with exactly the arguments it declares. -/
def Candidate.ofFunction (function : Function) : Candidate :=
  .declared function function.parameters.length 0

/-- Why a registration fails. -/
inductive RegistrationError where
  | invalidName (name : Text)
  | builtinName (name : Text)
  | foreign (shown name : Text)
  | untyped (name : Text)
  | argumentCount (name : Text) (declared : Nat)

namespace RegistrationError

/-- The kind of error, as it is reported. -/
def label : Text :=
  "JsonPathError"

/-- The cause in words. -/
def message : RegistrationError → Text
  | invalidName name =>
    "Invalid function name `" ++ name ++ "`, it must start with a lowercase letter followed by "
      ++ "lowercase letters, digits or underscores."
  | builtinName name =>
    "Unable to register a function with the same name of the built-in function: " ++ name ++ "()."
  | foreign shown name =>
    "The given func \"" ++ shown ++ "\" for the custom function " ++ name ++ "() does not adhere "
      ++ "to the jsoncrawler.FunctionProtocol."
  | untyped name =>
    "The custom function " ++ name ++ "() must declare arg_types as a tuple of ExpressionType and "
      ++ "result_type as an ExpressionType."
  | argumentCount name declared =>
    "The custom function " ++ name ++ "() declares " ++ Numeral.ofNat declared
      ++ " arguments but its signature does not accept them."

end RegistrationError

/-- A name that can be called: a lower case letter, then lower case letters, digits and
underscores.
-/
def isFunctionName (name : Text) : Bool :=
  !name.isEmpty && (Syntax.word name).2.isEmpty

/-- The function of a candidate that can be registered under a name. -/
def Candidate.validate (name : Text) (candidate : Candidate) : Except RegistrationError Function :=
  if !isFunctionName name then .error (.invalidName name)
  else if (Builtin.ofName? name).isSome then .error (.builtinName name)
  else
    match candidate with
    | .foreign shown => .error (.foreign shown name)
    | .untyped => .error (.untyped name)
    | .declared function needed optional =>
      let count := function.parameters.length
      if needed ≤ count ∧ count ≤ needed + optional then .ok function
      else .error (.argumentCount name count)

/-- The registered functions with their names, the latest first. -/
abbrev Registry := List (Text × Function)

namespace Registry

/-- The function of this name, which is a registered one only if it is not one that every
query can call.
-/
def function? (registry : Registry) (name : Text) : Option Function :=
  match Builtin.ofName? name with
  | some builtin => some builtin.function
  | none => registry.lookup name

end Registry

/-- The context of a document with registered functions. -/
def Context.of (root : Value) (registry : Registry) : Context where
  root
  function? := Registry.function? registry

/-- The nodes that a query finds in a document. -/
def Query.find (query : Query) (document : Value) (registry : Registry)
    : Except EvaluationError (List Node) :=
  apply (.of document registry) query [⟨document, []⟩]

end JsonPath
