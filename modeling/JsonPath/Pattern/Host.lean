import JsonPath.Text.Numeral

/-! What the reader of patterns takes from where it runs: how deep groups can be nested, and
which characters have names. The names of Unicode are a table of their own, which is no part
of the reader.
-/

namespace JsonPath.Pattern

structure Host where
  /-- How deep groups can be nested. -/
  depth : Nat
  /-- The character of a name. -/
  character? : Text → Option CodePoint

namespace Host

/-- What names of characters are made of: letters, digits, spaces and hyphens. -/
def isNamePart : CodePoint → Bool
  | .char c => c.isAlphanum || c = ' ' || c = '-'
  | .surrogate _ => false

/-- The character that has the name. -/
def named? (host : Host) (name : Text) : Option CodePoint :=
  if name.isEmpty || !name.all isNamePart then none else host.character? name

/-- The names of the ASCII characters from the space to the at sign, from the bracket after
the capital letters to the grave accent, and behind the small letters.
-/
def markNames : List (Nat × List String) := [
  (0x20, ["SPACE", "EXCLAMATION MARK", "QUOTATION MARK", "NUMBER SIGN", "DOLLAR SIGN",
    "PERCENT SIGN", "AMPERSAND", "APOSTROPHE", "LEFT PARENTHESIS", "RIGHT PARENTHESIS",
    "ASTERISK", "PLUS SIGN", "COMMA", "HYPHEN-MINUS", "FULL STOP", "SOLIDUS", "DIGIT ZERO",
    "DIGIT ONE", "DIGIT TWO", "DIGIT THREE", "DIGIT FOUR", "DIGIT FIVE", "DIGIT SIX",
    "DIGIT SEVEN", "DIGIT EIGHT", "DIGIT NINE", "COLON", "SEMICOLON", "LESS-THAN SIGN",
    "EQUALS SIGN", "GREATER-THAN SIGN", "QUESTION MARK", "COMMERCIAL AT"]),
  (0x5B, ["LEFT SQUARE BRACKET", "REVERSE SOLIDUS", "RIGHT SQUARE BRACKET",
    "CIRCUMFLEX ACCENT", "LOW LINE", "GRAVE ACCENT"]),
  (0x7B, ["LEFT CURLY BRACKET", "VERTICAL LINE", "RIGHT CURLY BRACKET", "TILDE"])
]

/-- The names of the marks and digits with their codes. -/
def marks : List (Text × Nat) :=
  markNames.flatMap fun (first, names) => (names.map Text.ofString).zipIdx first

/-- The names of the letters with their codes. -/
def letters : List (Text × Nat) :=
  (List.range 26).flatMap fun n =>
    let letter : Text := [.ofNat (0x41 + n)]
    [("LATIN CAPITAL LETTER " ++ letter, 0x41 + n), ("LATIN SMALL LETTER " ++ letter, 0x61 + n)]

/-- The letter in upper case, if it is an ASCII one. -/
def upper : CodePoint → CodePoint
  | .char c => .char c.toUpper
  | .surrogate offset => .surrogate offset

/-- A host that knows the printable ASCII characters by their names. -/
def standard : Host where
  depth := 200
  character? name := ((marks ++ letters).lookup (name.map upper)).map .ofNat

end Host

end JsonPath.Pattern
