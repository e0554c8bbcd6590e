import JsonPath.Function.Signature
import JsonPath.Query.Printer

/-! What can be wrong with the text of a query or a filter expression, and how it is
reported.
-/

namespace JsonPath

/-- Why a text is not a query or a filter expression. -/
inductive SyntaxCause where
  | emptyQuery
  | missingRoot
  | tooDeep
  | trailingBlank
  | unexpected (c : CodePoint)
  | emptyFilter
  | unexpectedInFilter (c : CodePoint)
  | blankAfterDot
  | missingAfterDescent
  | invalidName
  | openBracket
  | expectedSelectorEnd (c : CodePoint)
  | emptySelection
  | invalidSelector (c : CodePoint)
  | expectedInteger
  | leadingZeros (integer : Text)
  | negativeZero
  | integerOutOfRange (integer : Text)
  | openString
  | controlCharacter
  | invalidEscape (escaped : Option CodePoint)
  | invalidUnicodeEscape
  | unpairedLowSurrogate
  | unpairedHighSurrogate
  | invalidLowSurrogate
  | negatedComparable
  | openParenthesis
  | expectedParenthesis (c : CodePoint)
  | endOfFilter
  | invalidExpression (c : CodePoint)
  | invalidNumber
  | openCall (name : Text)
  | expectedArgumentEnd (name : Text) (c : CodePoint)
  | argumentCount (name : Text) (expected found : Nat)
  | invalidArgument (argument : Expression) (name : Text) (expected : Kind)
  | notSingular (query : Expression)
  | notComparable (call : Expression)
  | literalTest (literal : Expression)
  | valueTest (call : Expression)
  | oversizedInteger (digits : Nat)

namespace SyntaxCause

/-- The cause in words. -/
def message : SyntaxCause → Text
  | emptyQuery => "Empty query."
  | missingRoot => "Query must start with the root identifier `$`."
  | tooDeep => "Expression nested too deeply."
  | trailingBlank => "Trailing blank space at the end of the query."
  | unexpected c => "Unexpected character `" ++ [c] ++ "`."
  | emptyFilter => "Empty filter expression."
  | unexpectedInFilter c => "Unexpected character `" ++ [c] ++ "` in filter expression."
  | blankAfterDot => "Blank space is not allowed after a dot."
  | missingAfterDescent =>
    "Expected a member name, `*` or `[` after the descendant operator `..`."
  | invalidName =>
    "Invalid member name, use the bracket notation with a quoted name instead."
  | openBracket => "Unbalanced bracket `[`, missing `]`."
  | expectedSelectorEnd c => "Expected `,` or `]` in bracketed selection, got `" ++ [c] ++ "`."
  | emptySelection => "Empty bracketed selection."
  | invalidSelector c => "Invalid selector starting with `" ++ [c] ++ "`."
  | expectedInteger => "Expected an integer."
  | leadingZeros integer => "Leading zeros are not allowed in integer `" ++ integer ++ "`."
  | negativeZero => "Negative zero is not a valid integer."
  | integerOutOfRange integer => "Integer `" ++ integer ++ "` out of the allowed range."
  | openString => "Unterminated string literal."
  | controlCharacter => "Control characters must be escaped in string literals."
  | invalidEscape escaped =>
    "Invalid escape sequence `\\" ++ escaped.toList ++ "` in string literal."
  | invalidUnicodeEscape => "Invalid unicode escape sequence."
  | unpairedLowSurrogate => "Unpaired low surrogate in unicode escape sequence."
  | unpairedHighSurrogate => "Unpaired high surrogate in unicode escape sequence."
  | invalidLowSurrogate => "Invalid low surrogate in unicode escape sequence."
  | negatedComparable =>
    "The `!` operator must be followed by a query, a function call or a "
      ++ "parenthesized expression."
  | openParenthesis => "Unbalanced parentheses `(`, missing `)`."
  | expectedParenthesis c =>
    "Expected `)` to close the parenthesized expression, got `" ++ [c] ++ "`."
  | endOfFilter => "Unexpected end of filter expression."
  | invalidExpression c => "Invalid filter expression starting with `" ++ [c] ++ "`."
  | invalidNumber => "Invalid number literal."
  | openCall name => "Unbalanced parentheses in call to " ++ name ++ "()."
  | expectedArgumentEnd name c =>
    "Expected `,` or `)` in call to " ++ name ++ "(), got `" ++ [c] ++ "`."
  | argumentCount name expected found =>
    "Function " ++ name ++ "() takes " ++ Numeral.ofNat expected ++ " arguments, got "
      ++ Numeral.ofNat found ++ "."
  | invalidArgument argument name expected =>
    "Invalid argument `" ++ argument.text ++ "` for function " ++ name ++ "(), expected "
      ++ expected.text ++ "."
  | notSingular query =>
    "Non-singular query `" ++ query.text ++ "` cannot be used in a comparison."
  | notComparable call =>
    "Function `" ++ call.text ++ "` does not return a value and cannot be compared."
  | literalTest literal =>
    "Literal `" ++ literal.text ++ "` must be compared, it cannot be used as a test."
  | valueTest call => "Function `" ++ call.text ++ "` returns a value, it must be compared."
  | oversizedInteger digits => Numeral.oversizedMessage digits

end SyntaxCause

/-- Why a text cannot be read as a query. -/
inductive QueryError where
  /-- The text breaks the grammar, or a rule on the use of expressions, at a position. -/
  | syntaxError (cause : SyntaxCause) (query : Text) (position : Nat)
  /-- The text has an integer literal of too many digits. -/
  | oversizedInteger (digits : Nat)

namespace QueryError

/-- The kind of error, as it is reported. -/
def label : QueryError → Text
  | syntaxError _ _ _ => "QuerySyntaxError"
  | oversizedInteger _ => "ValueError"

/-- The error in words. A syntax error shows the query and a mark below the position. -/
def message : QueryError → Text
  | syntaxError cause query position =>
    cause.message ++ "\nQuery: " ++ query ++ "\n"
      ++ List.replicate (position + 7) (CodePoint.char '-') ++ "^"
  | oversizedInteger digits => Numeral.oversizedMessage digits

end QueryError

end JsonPath
