import JsonPath.Value.Basic

/-! Queries: the segments applied one after another to the nodes found so far, and the
expressions that filters test their nodes with.
-/

namespace JsonPath

inductive Comparator where
  | equal
  | notEqual
  | atMost
  | atLeast
  | less
  | greater
  deriving DecidableEq

mutual

/-- A step of a query. All but `descendants` are selectors, which can also stand in a union.
-/
inductive Segment where
  | key (name : Text)
  | index (position : Int)
  | slice (start stop : Option Int) (step : Int)
  | wildcard
  | filter (test : Expression)
  | union (selectors : List Segment)
  | descendants

/-- An expression of a filter. `current` and `root` are queries from the tested node and
from the whole document.
-/
inductive Expression where
  | literal (value : Value)
  | current (segments : List Segment)
  | root (segments : List Segment)
  | comparison (comparator : Comparator) (left right : Expression)
  | conjunction (operands : List Expression)
  | disjunction (operands : List Expression)
  | negation (operand : Expression)
  | call (name : Text) (arguments : List Expression)

end

instance : Inhabited Segment := ⟨.wildcard⟩

instance : Inhabited Expression := ⟨.literal .null⟩

/-- A query from the root of a document. -/
abbrev Query := List Segment

namespace Segment

def isDescendants : Segment → Bool
  | descendants => true
  | _ => false

/-- A selector that finds at most one node. -/
def isSingular : Segment → Bool
  | key _ => true
  | index _ => true
  | _ => false

/-- The selector of a bracketed selection, a union if there are several. -/
def ofSelection : List Segment → Segment
  | [selector] => selector
  | selectors => union selectors

end Segment

namespace Query

/-- Whether the query can find at most one node. -/
def isSingular (query : Query) : Bool :=
  query.all Segment.isSingular

/-- Whether the query ends with a descent that no selector follows. -/
def isDangling (query : Query) : Bool :=
  query.getLast?.any Segment.isDescendants

end Query

namespace Expression

/-- The operands that an operand of a conjunction contributes to it. -/
def conjuncts : Expression → List Expression
  | .conjunction inner => inner
  | operand => [operand]

/-- The two or more operands of a conjunction, with those of operands that are conjunctions
themselves in their place; a single operand stands for itself.
-/
def conjoin : List Expression → Expression
  | [operand] => operand
  | operands => .conjunction (operands.flatMap conjuncts)

/-- The operands that an operand of a disjunction contributes to it. -/
def disjuncts : Expression → List Expression
  | .disjunction inner => inner
  | operand => [operand]

/-- The two or more operands of a disjunction, with those of operands that are disjunctions
themselves in their place; a single operand stands for itself.
-/
def disjoin : List Expression → Expression
  | [operand] => operand
  | operands => .disjunction (operands.flatMap disjuncts)

end Expression

/-- The greatest magnitude of an index or of a bound or step of a slice. -/
def maxInteger : Nat := Nat.pow 2 53 - 1

end JsonPath
