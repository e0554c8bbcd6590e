import JsonPath.Number.Literal
import JsonPath.Text.Blank
import JsonPath.Text.Surrogate
import JsonPath.Text.Utf8
import JsonPath.Value.Basic
import JsonPath.Value.Malformed

/-! Reading documents. Each reader takes the text that is left and returns what it found
with the text after it, or a fault with the text at which it stands. `limit` bounds the
length of every text that is left.
-/

namespace JsonPath.Document

/-- A malformation and the text that is left at it. -/
structure Fault where
  cause : Malformation
  rest : Text

def fail {α : Type} (cause : Malformation) (rest : Text) : Except Fault α :=
  .error ⟨cause, rest⟩

/-- Four hexadecimal digits with something after them. Faults are reported at `mark`. -/
def codeUnit (mark : Text) : Text → Except Fault (Nat × Text)
  | a :: b :: c :: d :: e :: rest =>
    match Numeral.hexToNat? [a, b, c, d] with
    | some unit => .ok (unit, e :: rest)
    | none => fail .invalidUnicodeEscape mark
  | _ => fail .invalidUnicodeEscape mark

/-- The digits after `\u`, together with a low surrogate in a second escape after a high
one. Faults are reported at the letter `u`.
-/
def unicodeEscape (rest : Text) : Except Fault (CodePoint × Text) := do
  let (unit, rest) ← codeUnit (.char 'u' :: rest) rest
  match Surrogate.isHigh unit, rest with
  | true, .char '\\' :: .char 'u' :: second =>
    let (low, after) ← codeUnit (.char 'u' :: second) second
    if Surrogate.isLow low then
      return (Surrogate.join unit low, after)
    else
      return (.ofNat unit, rest)
  | _, _ => return (.ofNat unit, rest)

/-- The character that a backslash and the given one stand for. -/
def simpleEscape? : CodePoint → Option CodePoint
  | .char '"' => some (.char '"')
  | .char '\\' => some (.char '\\')
  | .char '/' => some (.char '/')
  | .char 'b' => some (.char '\x08')
  | .char 'f' => some (.char '\x0C')
  | .char 'n' => some (.char '\n')
  | .char 'r' => some (.char '\r')
  | .char 't' => some (.char '\t')
  | _ => none

/-- What follows a backslash, in the string that starts at `start`. -/
def escape (start : Text) : Text → Except Fault (CodePoint × Text)
  | [] => fail .unterminatedString start
  | .char 'u' :: rest => unicodeEscape rest
  | c :: rest =>
    match simpleEscape? c with
    | some c => .ok (c, rest)
    | none => fail .invalidEscape (.char '\\' :: c :: rest)

/-- The rest of the string that starts at `start`, up to its closing quote. -/
def stringRest (start : Text) : Nat → Text → Except Fault (Text × Text)
  | 0, _ => fail .unterminatedString start
  | limit + 1, t =>
    match t with
    | [] => fail .unterminatedString start
    | .char '"' :: rest => .ok ([], rest)
    | .char '\\' :: rest => do
      let (c, rest) ← escape start rest
      let (content, rest) ← stringRest start limit rest
      return (c :: content, rest)
    | c :: rest =>
      if c.toNat < 0x20 then
        fail .controlCharacter t
      else do
        let (content, rest) ← stringRest start limit rest
        return (c :: content, rest)

/-- The constants that some writers of documents use, which are no JSON. -/
def constants : List Text :=
  ["NaN", "Infinity", "-Infinity"]

/-- The words that stand for values. -/
def words : List (Text × Value) :=
  [("null", .null), ("true", .bool true), ("false", .bool false)]

/-- A value that is neither a string nor has parts. -/
def scalar (t : Text) : Except Fault (Value × Text) :=
  match words.findSome? fun (word, value) => (Text.after? word t).map (value, ·) with
  | some reading => .ok reading
  | none =>
    match constants.find? fun name => (Text.after? name t).isSome with
    | some name => fail (.constant name) t
    | none =>
      match NumberLiteral.scan? t with
      | none => fail .expectedValue t
      | some (literal, rest) =>
        match literal.number with
        | .ok n => .ok (.number n, rest)
        | .error digits => fail (.oversizedInteger digits) t

/-- One or more elements and the bracket after them. -/
def elements (nested : Text → Except Fault (Value × Text))
    : Nat → Text → Except Fault (List Value × Text)
  | 0, t => fail .expectedValue t
  | limit + 1, t => do
    let (value, rest) ← nested t
    match Text.skipBlanks rest with
    | .char ']' :: rest => return ([value], rest)
    | .char ',' :: rest =>
      let (values, rest) ← elements nested limit (Text.skipBlanks rest)
      return (value :: values, rest)
    | rest => fail .expectedComma rest

/-- One or more members and the brace after them. -/
def members (nested : Text → Except Fault (Value × Text))
    : Nat → Text → Except Fault (List (Text × Value) × Text)
  | 0, t => fail .expectedName t
  | limit + 1, t =>
    match t with
    | .char '"' :: rest => do
      let (name, rest) ← stringRest t limit rest
      match Text.skipBlanks rest with
      | .char ':' :: rest =>
        let (value, rest) ← nested (Text.skipBlanks rest)
        match Text.skipBlanks rest with
        | .char '\x7d' :: rest => return ([(name, value)], rest)
        | .char ',' :: rest =>
          let (others, rest) ← members nested limit (Text.skipBlanks rest)
          return ((name, value) :: others, rest)
        | rest => fail .expectedComma rest
      | rest => fail .expectedColon rest
    | _ => fail .expectedName t

/-- A value whose parts are read by `nested`. -/
def valueWith (limit : Nat) (nested : Text → Except Fault (Value × Text)) (t : Text)
    : Except Fault (Value × Text) :=
  match t with
  | .char '"' :: rest => do
    let (content, rest) ← stringRest t limit rest
    return (.string content, rest)
  | .char '[' :: rest =>
    match Text.skipBlanks rest with
    | .char ']' :: rest => .ok (.array [], rest)
    | rest => do
      let (values, rest) ← elements nested limit rest
      return (.array values, rest)
  | .char '\x7b' :: rest =>
    match Text.skipBlanks rest with
    | .char '\x7d' :: rest => .ok (.object [], rest)
    | rest => do
      let (found, rest) ← members nested limit rest
      return (.object (Members.ofList found), rest)
  | _ => scalar t

/-- A value whose arrays and objects are nested at most `depth` deep. -/
def value (limit : Nat) : Nat → Text → Except Fault (Value × Text)
  | 0 => fail .tooDeep
  | depth + 1 => valueWith limit (value limit depth)

/-- The text after the string whose opening quote comes before `t`, if it is closed. -/
def afterString? : Text → Option Text
  | [] => none
  | .char '"' :: rest => some rest
  | .char '\\' :: _ :: rest => afterString? rest
  | .char '\\' :: [] => none
  | _ :: rest => afterString? rest

/-- Whether a constant that is no JSON stands at the start, with or without a sign. -/
def startsWithConstant : Text → Bool
  | .char '-' :: rest => (Text.after? "NaN" rest).isSome || (Text.after? "Infinity" rest).isSome
  | rest => (Text.after? "NaN" rest).isSome || (Text.after? "Infinity" rest).isSome

/-- The text from the first constant outside the strings on. -/
def firstConstant? : Nat → Text → Option Text
  | 0, _ => none
  | _ + 1, [] => none
  | limit + 1, .char '"' :: rest =>
    firstConstant? limit ((afterString? rest).getD rest)
  | limit + 1, c :: rest =>
    if startsWithConstant (c :: rest) then some (c :: rest) else firstConstant? limit rest

/-- Where the fault is reported. The place of a value that cannot be converted is looked up
afterwards: it is that of the first constant, or the start when there is none.
-/
def Fault.position (fault : Fault) (document : Text) : Nat :=
  match fault.cause with
  | .tooDeep => 0
  | .constant _ | .oversizedInteger _ =>
    match firstConstant? (document.length + 1) document with
    | some rest => document.length - rest.length
    | none => 0
  | _ => document.length - fault.rest.length

/-- The value of a whole document, nested at most `depth` deep. -/
def read (depth : Nat) (document : Text) : Except Fault Value := do
  match document with
  | .char '\uFEFF' :: _ => .error ⟨.byteOrderMark, document⟩
  | _ =>
    let (value, rest) ← value (document.length + 1) depth (Text.skipBlanks document)
    match Text.skipBlanks rest with
    | [] => return value
    | rest => .error ⟨.extraData, rest⟩

/-- The value of the text of a document whose values are nested at most `depth` deep. -/
def decodeWithin (depth : Nat) (document : Text) : Except MalformedJson Value :=
  (read depth document).mapError fun fault =>
    .located fault.cause document (fault.position document)

/-- The value of the bytes of a document whose values are nested at most `depth` deep. -/
def decodeBytesWithin (depth : Nat) (bytes : List UInt8) : Except MalformedJson Value :=
  match Utf8.decode bytes with
  | .ok document => decodeWithin depth document
  | .error offset => .error (.undecodable offset)

/-- The deepest nesting of values on a standard host, scalars included. -/
def maxDepth : Nat := 960

/-- The value of the text of a document. -/
def decode (document : Text) : Except MalformedJson Value :=
  decodeWithin maxDepth document

/-- The value of the bytes of a document. -/
def decodeBytes (bytes : List UInt8) : Except MalformedJson Value :=
  decodeBytesWithin maxDepth bytes

end JsonPath.Document
