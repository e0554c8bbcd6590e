import JsonPath.Text.CodePoint

/-! White space and line ends in the sense of Unicode, wider than the blanks of the
grammars.
-/

namespace JsonPath

namespace CodePoint

/-- White space: the characters of bidirectional class B, S or WS, and the space separators.
-/
def isSpace (c : CodePoint) : Bool :=
  let n := c.toNat
  (0x09 ≤ n && n ≤ 0x0D) || (0x1C ≤ n && n ≤ 0x20) || n = 0x85 || n = 0xA0 || n = 0x1680
    || (0x2000 ≤ n && n ≤ 0x200A) || n = 0x2028 || n = 0x2029 || n = 0x202F || n = 0x205F
    || n = 0x3000

/-- A character that ends a line on its own. -/
def isLineEnd (c : CodePoint) : Bool :=
  let n := c.toNat
  (0x0A ≤ n && n ≤ 0x0D) || (0x1C ≤ n && n ≤ 0x1E) || n = 0x85 || n = 0x2028 || n = 0x2029

end CodePoint

namespace Text

/-- The text without the white space at its two ends. -/
def strip (t : Text) : Text :=
  ((t.dropWhile CodePoint.isSpace).reverse.dropWhile CodePoint.isSpace).reverse

/-- The lines of a text without their ends, given the line read so far in reverse. A
carriage return directly before a line feed ends one line together with it, and an end that
nothing follows opens no further line.
-/
def linesFrom (line : Text) : Text → List Text
  | [] => if line.isEmpty then [] else [line.reverse]
  | .char '\r' :: .char '\n' :: rest => line.reverse :: linesFrom [] rest
  | c :: rest =>
    if c.isLineEnd then line.reverse :: linesFrom [] rest else linesFrom (c :: line) rest

/-- The lines of a text at every kind of line end. -/
def lines (t : Text) : List Text :=
  linesFrom [] t

/-- The text with every `CR LF` and every lone `CR` replaced by `LF`. -/
def unifyNewlines : Text → Text
  | [] => []
  | .char '\r' :: .char '\n' :: rest => .char '\n' :: unifyNewlines rest
  | .char '\r' :: rest => .char '\n' :: unifyNewlines rest
  | c :: rest => c :: unifyNewlines rest

end Text

end JsonPath
