import JsonPath.Text.CodePoint

/-! Numerals: natural numbers and integers in decimal notation, and hexadecimal digits. Only
the ASCII digits count here.
-/

namespace JsonPath

namespace CodePoint

/-- The scalar value of a code point that is not a lone surrogate. -/
def char? : CodePoint → Option Char
  | char c => some c
  | surrogate _ => none

/-- An ASCII decimal digit. -/
def isDigit : CodePoint → Bool
  | char c => c.isDigit
  | surrogate _ => false

/-- The value of an ASCII hexadecimal digit of either case. -/
def hexDigit? : CodePoint → Option Nat
  | char c =>
    if '0' ≤ c ∧ c ≤ '9' then some (c.toNat - '0'.toNat)
    else if 'a' ≤ c ∧ c ≤ 'f' then some (c.toNat - 'a'.toNat + 10)
    else if 'A' ≤ c ∧ c ≤ 'F' then some (c.toNat - 'A'.toNat + 10)
    else none
  | surrogate _ => none

end CodePoint

namespace Numeral

/-- The decimal numeral of a natural number, without leading zeros. -/
def ofNat (n : Nat) : Text :=
  (Nat.toDigits 10 n).map .char

/-- The decimal numeral of an integer, with a minus sign when it is negative. -/
def ofInt : Int → Text
  | .ofNat n => ofNat n
  | .negSucc n => .char '-' :: ofNat (n + 1)

/-- The number that a run of decimal digits denotes. -/
def toNat (digits : Text) : Nat :=
  Nat.ofDigitChars 10 (digits.filterMap CodePoint.char?) 0

/-- The number that hexadecimal digits denote, when all are digits. -/
def hexToNat? (digits : Text) : Option Nat :=
  digits.foldlM (fun total c => c.hexDigit?.map (total * 16 + ·)) 0

/-- The last `width` hexadecimal digits of `n`, in lower case. -/
def hex (width n : Nat) : Text :=
  match width with
  | 0 => []
  | width + 1 => hex width (n / 16) ++ [.char (Nat.digitChar (n % 16))]

/-- The longest decimal numeral that is read or written as an integer, in digits. -/
def longest : Nat := 4300

/-- An integer with no more digits than can be written. -/
def isWritable (n : Int) : Bool :=
  n.natAbs < Nat.pow 10 longest

/-- The message about an integer with too many digits, with what is known about them. -/
def limitMessage (details : Text) : Text :=
  "Exceeds the limit (" ++ ofNat longest ++ " digits) for integer string conversion" ++ details
    ++ "; use sys.set_int_max_str_digits() to increase the limit"

/-- The message about an integer literal with too many digits. -/
def oversizedMessage (digits : Nat) : Text :=
  limitMessage (": value has " ++ ofNat digits ++ " digits")

end Numeral

end JsonPath
