import JsonPath.Text.CodePoint

/-! Surrogate pairs, which spell the code points above `U+FFFF` in escapes of four digits.
-/

namespace JsonPath.Surrogate

def isHigh (unit : Nat) : Bool :=
  0xD800 ≤ unit && unit < 0xDC00

def isLow (unit : Nat) : Bool :=
  0xDC00 ≤ unit && unit < 0xE000

/-- The code point of a high and a low surrogate. -/
def join (high low : Nat) : CodePoint :=
  .ofNat (0x10000 + (high - 0xD800) * 0x400 + (low - 0xDC00))

end JsonPath.Surrogate
