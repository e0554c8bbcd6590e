import JsonPath.Text.CodePoint

/-! The types of function arguments and results, and the signatures of the functions that
every query can call.
-/

namespace JsonPath

/-- What a function takes or returns: a value or its absence, a truth value, or the values
of nodes.
-/
inductive Kind where
  | value
  | logical
  | nodes
  deriving DecidableEq

def Kind.text : Kind → Text
  | value => "ValueType"
  | logical => "LogicalType"
  | nodes => "NodesType"

structure Signature where
  parameters : List Kind
  result : Kind
  deriving DecidableEq

/-- The functions that every query can call. -/
inductive Builtin where
  | count
  | length
  | fullMatch
  | search
  | value
  deriving DecidableEq

namespace Builtin

/-- The name that calls the function. -/
def name : Builtin → Text
  | count => "count"
  | length => "length"
  | fullMatch => "match"
  | search => "search"
  | value => "value"

def all : List Builtin :=
  [count, length, fullMatch, search, value]

/-- The function of this name. -/
def ofName? (name : Text) : Option Builtin :=
  all.find? fun builtin => builtin.name = name

def signature : Builtin → Signature
  | count => ⟨[.nodes], .value⟩
  | length => ⟨[.value], .value⟩
  | fullMatch => ⟨[.value, .value], .logical⟩
  | search => ⟨[.value, .value], .logical⟩
  | value => ⟨[.nodes], .value⟩

end Builtin

end JsonPath
