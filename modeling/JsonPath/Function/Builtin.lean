import JsonPath.Function.Basic
import JsonPath.Pattern.Matching
import JsonPath.Pattern.Reader

/-! The functions that every query can call. -/

namespace JsonPath.Builtin

/-- The number of characters of a string, elements of an array or members of an object. -/
def lengthOf : List Argument → Except CallFailure (Option Value)
  | [.value (some (.string content))] => .ok (some (.number (.int content.length)))
  | [.value (some (.array elements))] => .ok (some (.number (.int elements.length)))
  | [.value (some (.object members))] => .ok (some (.number (.int members.length)))
  | _ => .ok none

/-- The number of nodes. -/
def countOf : List Argument → Except CallFailure (Option Value)
  | [.nodes values] => .ok (some (.number (.int values.length)))
  | _ => .ok none

/-- The value of the only node. -/
def onlyValue : List Argument → Except CallFailure (Option Value)
  | [.nodes [only]] => .ok (some only)
  | _ => .ok none

section Patterns

variable (compile : Text → Except Pattern.Fault Pattern)

/-- Whether a test with a pattern holds of a text. No text passes the test with an invalid
pattern, and a pattern beyond the limits of patterns makes the call fail.
-/
def testPattern (test : Pattern → Text → Bool) (t pattern : Text) : Except CallFailure Bool :=
  match compile pattern with
  | .ok pattern => .ok (test pattern t)
  | .error .invalid => .ok false
  | .error _ => .error .raised

/-- Tests a string with a pattern; anything else does not pass. -/
def testString (test : Pattern → Text → Bool) : List Argument → Except CallFailure Bool
  | [.value (some (.string t)), .value (some (.string pattern))] =>
    testPattern compile test t pattern
  | _ => .ok false

def body : Builtin → Body
  | count => .value countOf
  | length => .value lengthOf
  | fullMatch => .logical (testString compile Pattern.isMatch)
  | search => .logical (testString compile Pattern.isFound)
  | value => .value onlyValue

/-- The function with patterns as `compile` reads them. -/
def functionWith (builtin : Builtin) : Function where
  parameters := builtin.signature.parameters
  body := builtin.body compile

end Patterns

def function (builtin : Builtin) : Function :=
  builtin.functionWith Pattern.compile

end JsonPath.Builtin
