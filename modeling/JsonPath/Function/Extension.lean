import JsonPath.Function.Registry

/-! A collection of functions to register beyond those that every query can call. -/

namespace JsonPath.Extension

/-- Whether a number is zero, whatever its sign. -/
def isZero (n : Number) : Bool :=
  n.isEqual (.int 0)

/-- Everything is true but null, false, zero and what is empty. -/
def isTruthy : Option Value → Bool
  | some .null => false
  | some (.bool b) => b
  | some (.number n) => !isZero n
  | some (.string content) => !content.isEmpty
  | some (.array elements) => !elements.isEmpty
  | some (.object members) => !members.isEmpty
  | none => true

/-- The name of the type of a value. -/
def typeName : Option Value → Text
  | none => "nothing"
  | some .null => "null"
  | some (.bool _) => "boolean"
  | some (.number _) => "number"
  | some (.string _) => "string"
  | some (.array _) => "array"
  | some (.object _) => "object"

/-- The largest of a list of numbers, the first of equal ones. Anything but numbers has no
largest.
-/
def largest : List Value → Option Number
  | [] => none
  | .number n :: values =>
    values.foldl (fun best value =>
      match best, value with
      | some best, .number n => some (if best.isLess n then n else best)
      | _, _ => none) (some n)
  | _ => none

def startsWith : Function where
  parameters := [.value, .value]
  body := .logical fun
    | [.value (some (.string t)), .value (some (.string start))] => .ok (start.isPrefixOf t)
    | _ => .ok false

def head : Function where
  parameters := [.value]
  body := .value fun
    | [.value (some (.array (element :: _)))] => .ok (some element)
    | _ => .ok none

def first : Function where
  parameters := [.nodes]
  body := .value fun
    | [.nodes values] => .ok values.head?
    | _ => .ok none

def tail : Function where
  parameters := [.nodes]
  body := .nodes fun
    | [.nodes values] => .ok values.tail
    | _ => .ok []

def negate : Function where
  parameters := [.logical]
  body := .logical fun
    | [.logical b] => .ok !b
    | _ => .ok false

def both : Function where
  parameters := [.logical, .logical]
  body := .logical fun
    | [.logical a, .logical b] => .ok (a && b)
    | _ => .ok false

def truthy : Function where
  parameters := [.value]
  body := .logical fun
    | [.value value] => .ok (isTruthy value)
    | _ => .ok false

def kind : Function where
  parameters := [.value]
  body := .value fun
    | [.value value] => .ok (some (.string (typeName value)))
    | _ => .ok none

def absent : Function where
  parameters := []
  body := .value fun _ => .ok none

def always : Function where
  parameters := []
  body := .logical fun _ => .ok true

def max : Function where
  parameters := [.value]
  body := .value fun
    | [.value (some (.array elements))] =>
      match largest elements with
      | some n => .ok (some (.number n))
      | none => .error .raised
    | _ => .error .raised

def identity : Function where
  parameters := [.value]
  body := .value fun
    | [.value value] => .ok value
    | _ => .ok none

/-- The collection by name. -/
def all : List (Text × Function) := [
  ("starts_with", startsWith),
  ("head", head),
  ("first", first),
  ("tail", tail),
  ("negate", negate),
  ("both", both),
  ("truthy", truthy),
  ("kind", kind),
  ("absent", absent),
  ("always", always),
  ("max", max),
  ("identity", identity)
]

end JsonPath.Extension
