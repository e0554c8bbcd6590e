import JsonPath.Number.Literal
import JsonPath.Query.SyntaxError
import JsonPath.Text.Blank
import JsonPath.Text.Category.Basic
import JsonPath.Text.Surrogate

/-! The smallest parts of queries: quoted strings, integers, numbers and names. Each reader
takes the text that is left and returns what it found with the text after it, or a fault
with the text at which it stands.
-/

namespace JsonPath.Syntax

/-- A cause and the text that is left where it is reported. -/
structure Fault where
  cause : SyntaxCause
  rest : Text

def fail {α : Type} (cause : SyntaxCause) (rest : Text) : Except Fault α :=
  .error ⟨cause, rest⟩

/-- The four digits of the escape whose backslash stands at `mark`. -/
def codeUnit (mark : Text) : Text → Except Fault (Nat × Text)
  | a :: b :: c :: d :: rest =>
    match Numeral.hexToNat? [a, b, c, d] with
    | some unit => .ok (unit, rest)
    | none => fail .invalidUnicodeEscape mark
  | _ => fail .invalidUnicodeEscape mark

/-- The digits after `\u`, and a second escape when they are a high surrogate. The first
backslash stands at `start`.
-/
def unicodeEscape (start rest : Text) : Except Fault (CodePoint × Text) := do
  let (unit, rest) ← codeUnit start rest
  if Surrogate.isLow unit then
    fail .unpairedLowSurrogate start
  else if Surrogate.isHigh unit then
    match rest with
    | .char '\\' :: .char 'u' :: second =>
      let (low, after) ← codeUnit rest second
      if Surrogate.isLow low then
        return (Surrogate.join unit low, after)
      else
        fail .invalidLowSurrogate start
    | _ => fail .unpairedHighSurrogate start
  else
    return (.ofNat unit, rest)

/-- The character that a backslash and the given one stand for in either kind of quotes. -/
def simpleEscape? : CodePoint → Option CodePoint
  | .char 'b' => some (.char '\x08')
  | .char 'f' => some (.char '\x0C')
  | .char 'n' => some (.char '\n')
  | .char 'r' => some (.char '\r')
  | .char 't' => some (.char '\t')
  | .char '/' => some (.char '/')
  | .char '\\' => some (.char '\\')
  | _ => none

/-- What follows the backslash at `start`. Of the quotes, only the one around the string is
escaped.
-/
def escape (quote : CodePoint) (start : Text) : Text → Except Fault (CodePoint × Text)
  | [] => fail (.invalidEscape none) start
  | c :: rest =>
    if c = quote then .ok (quote, rest)
    else
      match simpleEscape? c with
      | some c => .ok (c, rest)
      | none =>
        if c = .char 'u' then unicodeEscape start rest else fail (.invalidEscape (some c)) start

/-- The rest of the string that starts at `start`, up to its closing quote. -/
def stringRest (quote : CodePoint) (start : Text) : Nat → Text → Except Fault (Text × Text)
  | 0, _ => fail .openString start
  | _ + 1, [] => fail .openString start
  | limit + 1, c :: rest =>
    if c = quote then .ok ([], rest)
    else if c.toNat < 0x20 then fail .controlCharacter (c :: rest)
    else if c = .char '\\' then do
      let (c, rest) ← escape quote (c :: rest) rest
      let (content, rest) ← stringRest quote start limit rest
      return (c :: content, rest)
    else do
      let (content, rest) ← stringRest quote start limit rest
      return (c :: content, rest)

/-- Whether a digit of any script, or one of the other numeric digits, stands at the start.
-/
def startsWithDigit : Text → Bool
  | [] => false
  | c :: _ => c.isNumericDigit

/-- An integer of the allowed range, without leading zeros. -/
def integer (t : Text) : Except Fault (Int × Text) :=
  let (negative, digits) := NumberLiteral.scanMinus t
  match NumberLiteral.scanWhole? digits with
  | none => fail .expectedInteger t
  | some (digits, rest) =>
    let spelling := if negative then .char '-' :: digits else digits
    let n := NumberLiteral.toInt negative digits
    if startsWithDigit rest then fail (.leadingZeros spelling) t
    else if negative ∧ digits = "0" then fail .negativeZero t
    else if Numeral.longest < digits.length then fail (.oversizedInteger digits.length) t
    else if maxInteger < n.natAbs then fail (.integerOutOfRange spelling) t
    else .ok (n, rest)

/-- A number of any kind. -/
def number (t : Text) : Except Fault (Number × Text) :=
  match NumberLiteral.scan? t with
  | none => fail .invalidNumber t
  | some (literal, rest) =>
    if startsWithDigit rest || rest.head? = some (.char '.') then
      fail .invalidNumber t
    else
      match literal.number with
      | .ok n => .ok (n, rest)
      | .error digits => fail (.oversizedInteger digits) t

/-- A character that can start a member name in dot notation. -/
def isNameFirst (c : CodePoint) : Bool :=
  match c with
  | .surrogate _ => false
  | .char _ => c.isAsciiNameFirst || 0x80 ≤ c.toNat

/-- A character that can continue a member name in dot notation. -/
def isNameChar (c : CodePoint) : Bool :=
  isNameFirst c || c.isDigit

/-- A lower case ASCII letter. -/
def isLower : CodePoint → Bool
  | .char c => c.isLower
  | .surrogate _ => false

/-- The word at the start, as functions and the literals `true`, `false` and `null` are
named; empty when there is none.
-/
def word (t : Text) : Text × Text :=
  match t with
  | [] => ([], [])
  | c :: _ =>
    if isLower c then
      t.span fun c => isLower c || c.isDigit || c = .char '_'
    else
      ([], t)

/-- The operators of comparisons. -/
def comparators : List Comparator :=
  [.equal, .notEqual, .atMost, .atLeast, .less, .greater]

/-- The operator at the start. -/
def comparator? (t : Text) : Option (Comparator × Text) :=
  comparators.findSome? fun comparator => (Text.after? comparator.text t).map (comparator, ·)

end JsonPath.Syntax
