import JsonPath.Text.Category.Basic
import JsonPath.Text.Numeral

/-! Text between quotes on one line, with escapes for everything that does not print. -/

namespace JsonPath.Text

/-- A character between quotes of the given kind. -/
def quotedChar (quote : Char) (c : CodePoint) : Text :=
  if c = .char quote ∨ c = .char '\\' then [.char '\\', c]
  else if c = .char '\n' then "\\n"
  else if c = .char '\r' then "\\r"
  else if c = .char '\t' then "\\t"
  else if c.isPrintable then [c]
  else if c.toNat < 0x100 then "\\x" ++ Numeral.hex 2 c.toNat
  else if c.toNat < 0x10000 then "\\u" ++ Numeral.hex 4 c.toNat
  else "\\U" ++ Numeral.hex 8 c.toNat

/-- The text between single quotes, or between double ones when it has a single one and no
double one.
-/
def quoted (t : Text) : Text :=
  let quote := if t.contains (.char '\'') && !t.contains (.char '"') then '"' else '\''
  .char quote :: t.flatMap (quotedChar quote) ++ [.char quote]

end JsonPath.Text
