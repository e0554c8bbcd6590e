import JsonPath.Query.Printer
import JsonPath.Text.Quoted

/-! Queries as the constructors they are built from, for a look at their structure. -/

namespace JsonPath

/-- A number, where the infinities are written in short. -/
def Number.constructors (n : Number) : Text :=
  if n.isInfinite then
    if n.isLess (.int 0) then "-inf" else "inf"
  else
    n.text

mutual

def Value.constructors : Value → Text
  | .null => "None"
  | .bool true => "True"
  | .bool false => "False"
  | .number n => n.constructors
  | .string content => Text.quoted content
  | .array elements => .char '[' :: Text.joinWith ", " (elementConstructors elements) ++ "]"
  | .object members =>
    .char '\x7b' :: Text.joinWith ", " (memberConstructors members) ++ "\x7d"

def elementConstructors : List Value → List Text
  | [] => []
  | value :: values => value.constructors :: elementConstructors values

def memberConstructors : Members → List Text
  | [] => []
  | (name, value) :: members =>
    (Text.quoted name ++ ": " ++ value.constructors) :: memberConstructors members

end

/-- Parts in parentheses, with a comma behind a single one. -/
def tupleText : List Text → Text
  | [] => "()"
  | [part] => .char '(' :: part ++ ",)"
  | parts => .char '(' :: Text.joinWith ", " parts ++ ")"

def boundConstructors : Option Int → Text
  | none => "None"
  | some bound => Numeral.ofInt bound

mutual

def Segment.constructors : Segment → Text
  | .key name => "KeySelector(name=" ++ Text.quoted name ++ ")"
  | .index position => "IndexSelector(index=" ++ Numeral.ofInt position ++ ")"
  | .slice start stop step =>
    "SliceSelector(start=" ++ boundConstructors start ++ ", end=" ++ boundConstructors stop
      ++ ", step=" ++ Numeral.ofInt step ++ ")"
  | .wildcard => "WildcardSelector()"
  | .filter test => "FilterSelector(expression=" ++ test.constructors ++ ")"
  | .union selectors =>
    "UnionSelector(selectors=" ++ tupleText (segmentConstructors selectors) ++ ")"
  | .descendants => "DeepScan()"

def segmentConstructors : List Segment → List Text
  | [] => []
  | segment :: segments => segment.constructors :: segmentConstructors segments

def Expression.constructors : Expression → Text
  | .literal value => "Literal(value=" ++ value.constructors ++ ")"
  | .current segments =>
    "CurrentNodeRef(segments=" ++ tupleText (segmentConstructors segments) ++ ")"
  | .root segments => "RootRef(segments=" ++ tupleText (segmentConstructors segments) ++ ")"
  | .comparison comparator left right =>
    "Comparison(op='" ++ comparator.text ++ "', left=" ++ left.constructors ++ ", right="
      ++ right.constructors ++ ")"
  | .conjunction operands =>
    "Logical(op='and', operands=" ++ tupleText (expressionConstructors operands) ++ ")"
  | .disjunction operands =>
    "Logical(op='or', operands=" ++ tupleText (expressionConstructors operands) ++ ")"
  | .negation operand => "Logical(op='not', operands=(" ++ operand.constructors ++ ",))"
  | .call name arguments =>
    "FunctionCall(name=" ++ Text.quoted name ++ ", args="
      ++ tupleText (expressionConstructors arguments) ++ ")"

def expressionConstructors : List Expression → List Text
  | [] => []
  | e :: es => e.constructors :: expressionConstructors es

end

/-- The constructors of a query. -/
def Query.constructors (query : Query) : Text :=
  "JsonPath([" ++ Text.joinWith ", " (segmentConstructors query) ++ "])"

end JsonPath
