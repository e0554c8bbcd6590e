import JsonPath.Query.Basic

/-! Comparison of values, any of which can be absent. Only numbers and strings have an
order.
-/

namespace JsonPath

namespace Value

/-- The order of two numbers, or of two strings by code points. -/
def isLess : Value → Value → Bool
  | number a, number b => a.isLess b
  | string a, string b => a < b
  | _, _ => false

end Value

namespace Comparator

/-- The absence of a value is equal to itself only. -/
def areEqual : Option Value → Option Value → Bool
  | none, none => true
  | some a, some b => a.isEqual b
  | _, _ => false

def areOrdered : Option Value → Option Value → Bool
  | some a, some b => a.isLess b
  | _, _ => false

/-- Whether the comparison of two values holds. -/
def holds : Comparator → Option Value → Option Value → Bool
  | equal, a, b => areEqual a b
  | notEqual, a, b => !areEqual a b
  | less, a, b => areOrdered a b
  | atMost, a, b => areOrdered a b || areEqual a b
  | greater, a, b => areOrdered b a
  | atLeast, a, b => areOrdered b a || areEqual a b

end Comparator

end JsonPath
