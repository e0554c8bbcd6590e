import JsonPath.Number.Basic

/-! Number literals, spelled alike in documents and in queries: an integer part without
leading zeros, then optionally a fraction and an exponent.
-/

namespace JsonPath

/-- The parts of a number literal. The digits of an absent fraction are empty. -/
structure NumberLiteral where
  negative : Bool
  whole : Text
  fraction : Text
  exponent : Option (Bool × Text)

namespace NumberLiteral

/-- The integer part at the start of a text: one zero, or digits that start with another
one.
-/
def scanWhole? : Text → Option (Text × Text)
  | .char '0' :: rest => some ([.char '0'], rest)
  | rest =>
    let (digits, rest) := rest.span CodePoint.isDigit
    if digits.isEmpty then none else some (digits, rest)

/-- The digits of the fraction at the start of a text. -/
def scanFraction : Text → Text × Text
  | .char '.' :: rest =>
    let (digits, after) := rest.span CodePoint.isDigit
    if digits.isEmpty then ([], .char '.' :: rest) else (digits, after)
  | rest => ([], rest)

/-- The sign at the start of a text, where a missing one is positive. -/
def scanSign : Text → Bool × Text
  | .char '-' :: rest => (true, rest)
  | .char '+' :: rest => (false, rest)
  | rest => (false, rest)

/-- The sign and the digits of the exponent at the start of a text. -/
def scanExponent (t : Text) : Option (Bool × Text) × Text :=
  match t with
  | .char c :: rest =>
    if c = 'e' ∨ c = 'E' then
      let (negative, rest) := scanSign rest
      let (digits, rest) := rest.span CodePoint.isDigit
      if digits.isEmpty then (none, t) else (some (negative, digits), rest)
    else
      (none, t)
  | _ => (none, t)

/-- Whether a text starts with a minus sign, and the text after it. -/
def scanMinus : Text → Bool × Text
  | .char '-' :: rest => (true, rest)
  | rest => (false, rest)

/-- The longest literal at the start of a text, and the rest of the text. -/
def scan? (t : Text) : Option (NumberLiteral × Text) :=
  let (negative, t) := scanMinus t
  match scanWhole? t with
  | none => none
  | some (whole, rest) =>
    let (fraction, rest) := scanFraction rest
    let (exponent, rest) := scanExponent rest
    some (⟨negative, whole, fraction, exponent⟩, rest)

/-- A literal without fraction and exponent denotes an integer. -/
def isInt (literal : NumberLiteral) : Bool :=
  literal.fraction.isEmpty && literal.exponent.isNone

/-- The integer with the given sign and digits. -/
def toInt (negative : Bool) (digits : Text) : Int :=
  if negative then -(Numeral.toNat digits : Int) else Numeral.toNat digits

/-- The exponent of ten that is written out, zero when there is none. -/
def power (literal : NumberLiteral) : Int :=
  match literal.exponent with
  | some (negative, digits) => toInt negative digits
  | none => 0

/-- The floating point number nearest to the literal. -/
def toBinary64 (literal : NumberLiteral) : Binary64 :=
  .ofDecimal literal.negative (Numeral.toNat (literal.whole ++ literal.fraction))
    (literal.power - literal.fraction.length)

/-- The number that a literal denotes. -/
def value (literal : NumberLiteral) : Number :=
  if literal.isInt then .int (toInt literal.negative literal.whole) else .float literal.toBinary64

/-- The number of a literal as it is read. The error is the digit count of an integer that is
too long to be read.
-/
def number (literal : NumberLiteral) : Except Nat Number :=
  if literal.isInt ∧ Numeral.longest < literal.whole.length then
    .error literal.whole.length
  else
    .ok literal.value

end NumberLiteral

end JsonPath
