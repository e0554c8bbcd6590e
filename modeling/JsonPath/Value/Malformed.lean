import JsonPath.Text.Numeral
import JsonPath.Text.Space

/-! What can be wrong with the text of a document, and how it is reported: with a place in
the document and the line of that place.
-/

namespace JsonPath

/-- Why a text is not a document. -/
inductive Malformation where
  | expectedValue
  | expectedName
  | expectedColon
  | expectedComma
  | extraData
  | unterminatedString
  | controlCharacter
  | invalidEscape
  | invalidUnicodeEscape
  | byteOrderMark
  | tooDeep
  | constant (name : Text)
  | oversizedInteger (digits : Nat)
  | invalidUtf8
  deriving DecidableEq

namespace Malformation

/-- The cause in words. -/
def message : Malformation → Text
  | expectedValue => "Malformed JSON: Expecting value"
  | expectedName => "Malformed JSON: Expecting property name enclosed in double quotes"
  | expectedColon => "Malformed JSON: Expecting ':' delimiter"
  | expectedComma => "Malformed JSON: Expecting ',' delimiter"
  | extraData => "Malformed JSON: Extra data"
  | unterminatedString => "Malformed JSON: Unterminated string starting at"
  | controlCharacter => "Malformed JSON: Invalid control character at"
  | invalidEscape => "Malformed JSON: Invalid \\escape"
  | invalidUnicodeEscape => "Malformed JSON: Invalid \\uXXXX escape"
  | byteOrderMark => "Malformed JSON: Unexpected UTF-8 BOM (decode using utf-8-sig)"
  | tooDeep => "Malformed JSON: maximum nesting depth exceeded"
  | constant name => "Malformed JSON: Invalid JSON constant " ++ name
  | oversizedInteger digits => "Malformed JSON: " ++ Numeral.oversizedMessage digits
  | invalidUtf8 => "Invalid UTF-8 in JSON document"

end Malformation

/-- A text that is not a document. Positions count from 0, lines and columns from 1. -/
structure MalformedJson where
  cause : Malformation
  document : Text
  position : Nat
  line : Nat
  column : Nat

namespace MalformedJson

/-- The error at a position of a document, where lines end with a line feed. -/
def located (cause : Malformation) (document : Text) (position : Nat) : MalformedJson where
  cause
  document
  position
  line := (document.take position).count (.char '\n') + 1
  column := ((document.take position).reverse.takeWhile (· ≠ .char '\n')).length + 1

/-- Bytes that are not well-formed UTF-8 from an offset on. There is no document to show. -/
def undecodable (offset : Nat) : MalformedJson where
  cause := .invalidUtf8
  document := []
  position := offset
  line := 1
  column := 1

/-- The kind of error, as it is reported. -/
def label : Text :=
  "MalformedJsonError"

/-- The line of the document that is shown with the error. -/
def shownLine (error : MalformedJson) : Text :=
  let lines := error.document.lines
  (lines[min error.line lines.length - 1]?).getD []

/-- The cause, its place, the line and a mark below the column. -/
def message (error : MalformedJson) : Text :=
  error.cause.message ++ " (line " ++ Numeral.ofNat error.line ++ " column "
    ++ Numeral.ofNat error.column ++ ")\nLine: " ++ error.shownLine ++ "\n"
    ++ List.replicate (error.column + 5) (CodePoint.char '-') ++ "^"

end MalformedJson

end JsonPath
