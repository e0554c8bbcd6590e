import JsonPath.Query.Basic
import JsonPath.Value.Printer

/-! The canonical text of queries and expressions: names in dot notation where that is
possible, and no parentheses beyond those that the precedence of operators needs.
-/

namespace JsonPath

/-- A character of a name between single quotes. -/
def quoteChar (c : CodePoint) : Text :=
  match c with
  | .char '\x08' => "\\b"
  | .char '\x0C' => "\\f"
  | .char '\n' => "\\n"
  | .char '\r' => "\\r"
  | .char '\t' => "\\t"
  | .char '\'' => "\\'"
  | .char '\\' => "\\\\"
  | c => if c.toNat < 0x20 then "\\u" ++ Numeral.hex 4 c.toNat else [c]

/-- A member name between single quotes. -/
def quoteName (name : Text) : Text :=
  .char '\'' :: name.flatMap quoteChar ++ [.char '\'']

/-- An ASCII letter or the underscore. -/
def CodePoint.isAsciiNameFirst : CodePoint → Bool
  | .char c => c.isAlpha || c = '_'
  | .surrogate _ => false

/-- A name that is written in dot notation. -/
def isPlainName : Text → Bool
  | [] => false
  | c :: rest => c.isAsciiNameFirst && rest.all fun c => c.isAsciiNameFirst || c.isDigit

/-- The text of an optional bound of a slice. -/
def boundText : Option Int → Text
  | none => []
  | some bound => Numeral.ofInt bound

def Comparator.text : Comparator → Text
  | equal => "=="
  | notEqual => "!="
  | atMost => "<="
  | atLeast => ">="
  | less => "<"
  | greater => ">"

/-- Whether a negation of the expression needs no parentheses. -/
def Expression.isPrimary : Expression → Bool
  | .current _ => true
  | .root _ => true
  | .call _ _ => true
  | _ => false

def Expression.isDisjunction : Expression → Bool
  | .disjunction _ => true
  | _ => false

/-- The text between parentheses, if asked for. -/
def parenthesized (parentheses : Bool) (t : Text) : Text :=
  if parentheses then .char '(' :: t ++ [.char ')'] else t

mutual

/-- A selector as it stands between brackets. -/
def Segment.selectorText : Segment → Text
  | .key name => quoteName name
  | .index position => Numeral.ofInt position
  | .slice start stop step =>
    boundText start ++ .char ':' :: boundText stop
      ++ (if step = 1 then [] else .char ':' :: Numeral.ofInt step)
  | .wildcard => "*"
  | .filter test => .char '?' :: test.text
  | .union selectors => unionText selectors
  | .descendants => ".."

/-- Selectors behind one another. -/
def unionText : List Segment → Text
  | [] => []
  | [selector] => selector.selectorText
  | selector :: selectors => selector.selectorText ++ .char ',' :: unionText selectors

/-- Segments one after another. A dot directly after a descent is left out. -/
def segmentsText (afterDescent : Bool) : List Segment → Text
  | [] => []
  | .key name :: segments =>
    (if isPlainName name then
      if afterDescent then name else .char '.' :: name
    else
      .char '[' :: quoteName name ++ [.char ']']) ++ segmentsText false segments
  | .descendants :: segments => (if afterDescent then "." else "..") ++ segmentsText true segments
  | segment :: segments =>
    .char '[' :: segment.selectorText ++ .char ']' :: segmentsText false segments

def Expression.text : Expression → Text
  | .literal value => value.text
  | .current segments => .char '@' :: segmentsText false segments
  | .root segments => .char '$' :: segmentsText false segments
  | .comparison comparator left right => left.text ++ " " ++ comparator.text ++ " " ++ right.text
  | .conjunction operands => conjunctionText operands
  | .disjunction operands => disjunctionText operands
  | .negation operand => .char '!' :: parenthesized (!operand.isPrimary) operand.text
  | .call name arguments => name ++ .char '(' :: argumentsText arguments ++ ")"

/-- The operands of a conjunction. Disjunctions among them need parentheses. -/
def conjunctionText : List Expression → Text
  | [] => []
  | [operand] => parenthesized operand.isDisjunction operand.text
  | operand :: operands =>
    parenthesized operand.isDisjunction operand.text ++ " && " ++ conjunctionText operands

/-- The operands of a disjunction. -/
def disjunctionText : List Expression → Text
  | [] => []
  | [operand] => operand.text
  | operand :: operands => operand.text ++ " || " ++ disjunctionText operands

/-- The arguments of a call. -/
def argumentsText : List Expression → Text
  | [] => []
  | [argument] => argument.text
  | argument :: arguments => argument.text ++ ", " ++ argumentsText arguments

end

/-- The text of a query. -/
def Query.text (query : Query) : Text :=
  .char '$' :: segmentsText false query

-----------------------------------------------------------------------------------------
-- Limits
-----------------------------------------------------------------------------------------

mutual

/-- Whether the integers in a segment can be written, in positions and in literals. -/
def Segment.isWritable : Segment → Bool
  | .key _ | .wildcard | .descendants => true
  | .index position => Numeral.isWritable position
  | .slice start stop step =>
    start.all Numeral.isWritable && stop.all Numeral.isWritable && Numeral.isWritable step
  | .filter test => test.isWritable
  | .union selectors => segmentsWritable selectors

def segmentsWritable : List Segment → Bool
  | [] => true
  | segment :: segments => segment.isWritable && segmentsWritable segments

def Expression.isWritable : Expression → Bool
  | .literal value => value.isWritable
  | .current segments | .root segments => segmentsWritable segments
  | .comparison _ left right => left.isWritable && right.isWritable
  | .conjunction operands | .disjunction operands => expressionsWritable operands
  | .negation operand => operand.isWritable
  | .call _ arguments => expressionsWritable arguments

def expressionsWritable : List Expression → Bool
  | [] => true
  | e :: es => e.isWritable && expressionsWritable es

end

/-- The text of a query, when it can be written. -/
def Query.text? (query : Query) : Option Text :=
  if segmentsWritable query then some query.text else none

end JsonPath
