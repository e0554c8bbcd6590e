import JsonPath.Query.Constructors
import JsonPath.Query.Equivalence
import JsonPath.Session

/-! Assertions on the values that a request matches in a document. -/

namespace JsonPath

/-- An object that is expected to be found itself: the one at a location of the document, or
one that is no part of it, such as a copy.
-/
structure Expected where
  location : Location
  isCopy : Bool

inductive Assertion where
  | count (expected : Value)
  | equals (expected : Value)
  | notEquals (expected : Value)
  | contains (expected : Value)
  | notContains (expected : Value)
  | same (expected : List Expected)

namespace Assertion

/-- Whether nodes are the expected objects in the same order. `shares` tells whether one and
the same object stands at two locations.
-/
def areSame (shares : Location → Location → Bool) : List Node → List Expected → Bool
  | [], [] => true
  | node :: nodes, expected :: others =>
    shares node.location expected.location && !expected.isCopy && areSame shares nodes others
  | _, _ => false

/-- A value in messages: a string as it is, anything else by its constructors. -/
def shown : Value → Text
  | .string content => content
  | value => value.constructors

/-- A request in messages, when it can be written. -/
def request? : Request → Option Text
  | .text t => some t
  | .built query => query.text?

/-- Whether the matches are as asserted. A count can be any value that counts as the number.
-/
def holds (shares : Location → Location → Bool) (assertion : Assertion) (nodes : List Node)
    : Bool :=
  let values := nodes.map (·.value)
  match assertion with
  | count expected => (Value.number (.int values.length)).isAlike expected
  | equals expected => (Value.array values).isEqual expected
  | notEquals expected => !(Value.array values).isEqual expected
  | contains expected => values.any (·.isEqual expected)
  | notContains expected => !values.any (·.isEqual expected)
  | same expected => areSame shares nodes expected

/-- What is wrong when the matches of a request are not as asserted. It cannot be told when the
message would hold an integer that is too long to be written.
-/
def failure (assertion : Assertion) (request : Request) (nodes : List Node) : Option Text := do
  let request ← request? request
  let matched := (Value.array (nodes.map (·.value))).text?
  match assertion with
  | count expected =>
    let expected ← if expected.isWritable then some (shown expected) else none
    return "Expected " ++ expected ++ " matches for `" ++ request ++ "`, got "
      ++ Numeral.ofNat nodes.length ++ ": " ++ (← matched)
  | equals expected =>
    return "Matches for `" ++ request ++ "` are not equal to " ++ (← expected.text?) ++ ": "
      ++ (← matched)
  | notEquals expected =>
    return "Matches for `" ++ request ++ "` are equal to " ++ (← expected.text?)
  | contains expected =>
    return "Matches for `" ++ request ++ "` do not contain " ++ (← expected.text?) ++ ": "
      ++ (← matched)
  | notContains expected =>
    return "Matches for `" ++ request ++ "` contain " ++ (← expected.text?)
  | same _ =>
    return "Matches for `" ++ request ++ "` are not the same objects as expected: "
      ++ (← matched)

/-- How the check of an assertion ends. -/
inductive Verdict where
  | passed
  | failed (message : Text)
  /-- The assertion does not hold, but the message cannot be written. -/
  | unwritable

/-- What is reported unless the check passes. -/
def Verdict.report? : Verdict → Option Text
  | passed => none
  | failed message => some message
  | unwritable => some (Numeral.limitMessage [])

/-- Checks an assertion. `shares` tells which locations of the document have one and the same
object.
-/
def checkIn (shares : Location → Location → Bool) (assertion : Assertion)
    (request : Request) (source : Source) : Except RequestError Verdict := do
  let nodes ← source.findNodes request
  if assertion.holds shares nodes then return .passed
  else return ((assertion.failure request nodes).map .failed).getD .unwritable

/-- What is reported of an assertion, if anything, on a document in which every location has an
object of its own.
-/
def check (assertion : Assertion) (request : Request) (document : Value)
    : Except RequestError (Option Text) := do
  let shares (location other : Location) : Bool := location = other
  return (← assertion.checkIn shares request (.value document)).report?

end Assertion

end JsonPath
