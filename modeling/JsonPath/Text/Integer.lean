import JsonPath.Text.Category.Basic
import JsonPath.Text.Numeral
import JsonPath.Text.Space

/-! Integers as people type them: white space around them, a sign, decimal digits of any
script and single underscores between digits.
-/

namespace JsonPath

/-- The value of a decimal digit of any script. The digits of a script follow one another
from zero on, and so do the scripts in a run of digits.
-/
def CodePoint.decimal? (c : CodePoint) : Option Nat :=
  if c.isDecimal then some ((c.toNat - Category.startOf c.toNat) % 10) else none

namespace Text

/-- The values of digits with single underscores between them. -/
def groupedDigits? : Text → Option (List Nat)
  | [] => none
  | [c] => c.decimal?.map ([·])
  | c :: .char '_' :: rest => do return (← c.decimal?) :: (← groupedDigits? rest)
  | c :: rest => do return (← c.decimal?) :: (← groupedDigits? rest)

/-- The integer that a text spells, unless it has too many digits. -/
def toInt? (t : Text) : Option Int :=
  let (negative, digits) :=
    match strip t with
    | .char '-' :: rest => (true, rest)
    | .char '+' :: rest => (false, rest)
    | rest => (false, rest)
  match groupedDigits? digits with
  | none => none
  | some digits =>
    if Numeral.longest < digits.length then none
    else
      let n : Nat := digits.foldl (fun total digit => total * 10 + digit) 0
      some (if negative then -(n : Int) else n)

end Text

end JsonPath
