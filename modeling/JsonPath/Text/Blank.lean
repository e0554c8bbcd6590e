import JsonPath.Text.CodePoint

/-! The four blank characters that documents and queries allow between their tokens. -/

namespace JsonPath

/-- Space, tab, line feed and carriage return. -/
def CodePoint.isBlank : CodePoint → Bool
  | .char c => c = ' ' || c = '\t' || c = '\n' || c = '\r'
  | .surrogate _ => false

/-- The text from its first code point that is not blank. -/
def Text.skipBlanks (t : Text) : Text :=
  t.dropWhile CodePoint.isBlank

end JsonPath
