import JsonPath.Query.Reader

/-! Building queries one segment at a time. Arguments are values of any type, which are
checked first.
-/

namespace JsonPath

/-- The name of the type of a value in messages. -/
def Value.typeName : Value → Text
  | .null => "NoneType"
  | .bool _ => "bool"
  | .number (.int _) => "int"
  | .number (.float _) => "float"
  | .string _ => "str"
  | .array _ => "list"
  | .object _ => "dict"

/-- Why a query cannot be built. -/
inductive BuildError where
  | notString (argument : Text) (value : Value)
  | notInteger (argument : Text) (value : Value)
  | outOfRange (argument : Text) (n : Int)
  | zeroStep
  | emptyUnion
  | repeatedDescent
  | danglingDescent
  | filter (error : QueryError)

namespace BuildError

/-- The kind of error, as it is reported. -/
def label : BuildError → Text
  | filter error => error.label
  | _ => "InvalidPathBuilderArgument"

/-- The cause in words. -/
def message : BuildError → Text
  | notString argument value =>
    "Argument " ++ argument ++ " must be a string, got <class '" ++ value.typeName ++ "'>."
  | notInteger argument value =>
    "Argument " ++ argument ++ " must be an integer, got <class '" ++ value.typeName ++ "'>."
  | outOfRange argument n =>
    "Argument " ++ argument ++ " is out of the allowed range: " ++ Numeral.ofInt n ++ "."
  | zeroStep => "Slice step cannot be zero."
  | emptyUnion => "union() requires at least one selector."
  | repeatedDescent => "deep_scan() cannot be called twice in a row."
  | danglingDescent => "Incomplete query, deep_scan() must be followed by a selector."
  | filter error => error.message

end BuildError

/-- An argument for one selector of a union. -/
inductive UnionArgument where
  | value (value : Value)
  | slice (start stop step : Value)

namespace Builder

/-- An integer of the allowed range. -/
def integer (argument : Text) : Value → Except BuildError Int
  | .number (.int n) =>
    if maxInteger < n.natAbs then .error (.outOfRange argument n) else .ok n
  | value => .error (.notInteger argument value)

/-- An integer of the allowed range, or null for none. -/
def integer? (argument : Text) : Value → Except BuildError (Option Int)
  | .null => .ok none
  | value => some <$> integer argument value

/-- A slice of an array, whose step cannot be zero. -/
def sliceSelector (startName stopName stepName : Text) (start stop step : Value)
    : Except BuildError Segment := do
  let start ← integer? startName start
  let stop ← integer? stopName stop
  let step ← integer stepName step
  if step = 0 then .error .zeroStep else return .slice start stop step

/-- A selector of a union: a name, an index, or a slice whose step is one when it is null.
-/
def unionSelector : UnionArgument → Except BuildError Segment
  | .value (.string name) => .ok (.key name)
  | .value value => Segment.index <$> integer "selector" value
  | .slice start stop .null =>
    sliceSelector "slice start" "slice stop" "slice step" start stop (.number (.int 1))
  | .slice start stop step =>
    sliceSelector "slice start" "slice stop" "slice step" start stop step

end Builder

namespace Query

def key (name : Value) (query : Query) : Except BuildError Query :=
  match name with
  | .string name => .ok (query ++ [.key name])
  | value => .error (.notString "name" value)

def index (position : Value) (query : Query) : Except BuildError Query := do
  return query ++ [.index (← Builder.integer "index" position)]

/-- Appends the index of the first element. -/
def first (query : Query) : Query :=
  query ++ [.index 0]

/-- Appends the index of the last element. -/
def last (query : Query) : Query :=
  query ++ [.index (-1)]

def slice (start stop step : Value) (query : Query) : Except BuildError Query := do
  return query ++ [← Builder.sliceSelector "start" "end" "step" start stop step]

/-- Appends the selector of all children. -/
def all (query : Query) : Query :=
  query ++ [.wildcard]

def descend (query : Query) : Except BuildError Query :=
  if isDangling query then .error .repeatedDescent else .ok (query ++ [.descendants])

/-- Appends the selector of a filter expression, which is nested at most `depth` deep. -/
def filterWithin (depth : Nat) (expression : Value) (query : Query) : Except BuildError Query :=
  match expression with
  | .string expression =>
    match Expression.parseWithin depth expression with
    | .ok test => .ok (query ++ [.filter test])
    | .error error => .error (.filter error)
  | value => .error (.notString "expression" value)

def filter (expression : Value) (query : Query) : Except BuildError Query :=
  filterWithin Syntax.maxDepth expression query

def union (arguments : List UnionArgument) (query : Query) : Except BuildError Query := do
  match ← arguments.mapM Builder.unionSelector with
  | [] => .error .emptyUnion
  | [selector] => return query ++ [selector]
  | selectors => return query ++ [.union selectors]

/-- The query, unless it ends with a descent that no selector follows. -/
def complete (query : Query) : Except BuildError Query :=
  if isDangling query then .error .danglingDescent else .ok query

end Query

end JsonPath
