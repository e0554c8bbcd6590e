import JsonPath.Query.Basic

/-! Equality of queries: the same segments with equal literals, where truth values count as
the numbers 0 and 1 and numbers are compared by value.
-/

namespace JsonPath

namespace Value

/-- The number that a value counts as. -/
def asNumber? : Value → Option Number
  | bool b => some (.int (if b then 1 else 0))
  | number n => some n
  | _ => none

mutual

/-- Equality in which truth values count as numbers. -/
def isAlike : Value → Value → Bool
  | null, null => true
  | string a, string b => a = b
  | array a, array b => elementsAlike a b
  | object a, object b => a.length = b.length && membersAlike a b
  | a, b =>
    match a.asNumber?, b.asNumber? with
    | some m, some n => m.isEqual n
    | _, _ => false

def elementsAlike : List Value → List Value → Bool
  | [], [] => true
  | a :: as, b :: bs => isAlike a b && elementsAlike as bs
  | _, _ => false

def membersAlike : Members → Members → Bool
  | [], _ => true
  | (name, value) :: rest, others =>
    (match Members.get? name others with
      | some other => isAlike value other
      | none => false) && membersAlike rest others

end

end Value

mutual

def Segment.isAlike : Segment → Segment → Bool
  | .key a, .key b => a = b
  | .index a, .index b => a = b
  | .slice a b c, .slice a' b' c' => a = a' && b = b' && c = c'
  | .wildcard, .wildcard => true
  | .filter a, .filter b => a.isAlike b
  | .union as, .union bs => segmentsAlike as bs
  | .descendants, .descendants => true
  | _, _ => false

def segmentsAlike : List Segment → List Segment → Bool
  | [], [] => true
  | a :: as, b :: bs => a.isAlike b && segmentsAlike as bs
  | _, _ => false

def Expression.isAlike : Expression → Expression → Bool
  | .literal a, .literal b => a.isAlike b
  | .current as, .current bs => segmentsAlike as bs
  | .root as, .root bs => segmentsAlike as bs
  | .comparison c a b, .comparison c' a' b' => c = c' && a.isAlike a' && b.isAlike b'
  | .conjunction as, .conjunction bs => expressionsAlike as bs
  | .disjunction as, .disjunction bs => expressionsAlike as bs
  | .negation a, .negation b => a.isAlike b
  | .call name as, .call name' bs => name = name' && expressionsAlike as bs
  | _, _ => false

def expressionsAlike : List Expression → List Expression → Bool
  | [], [] => true
  | a :: as, b :: bs => a.isAlike b && expressionsAlike as bs
  | _, _ => false

end

/-- Whether two queries are equal. -/
def Query.isEqual (a b : Query) : Bool :=
  segmentsAlike a b

end JsonPath
