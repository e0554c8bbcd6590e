import JsonPath.Text.CodePoint

/-! The UTF-8 encoding: reading bytes strictly, and reading them with every byte that is out
of place kept as a lone surrogate.
-/

namespace JsonPath.Utf8

/-- The payload of a continuation byte. -/
def continuation? (byte : UInt8) : Option Nat :=
  if 0x80 ≤ byte ∧ byte < 0xC0 then some (byte.toNat - 0x80) else none

/-- The number of a well-formed sequence of several bytes: a scalar value that is not below
`least`.
-/
def scalar? (least n : Nat) : Option CodePoint :=
  if valid : n.isValidChar then
    if least ≤ n then some (.char (Char.ofNatAux n valid)) else none
  else
    none

/-- The first character of a sequence of bytes and the bytes after it. -/
def next? : List UInt8 → Option (CodePoint × List UInt8)
  | [] => none
  | a :: rest =>
    if a < 0x80 then
      some (.ofNat a.toNat, rest)
    else if a < 0xC0 then
      none
    else if a < 0xE0 then
      match rest with
      | b :: rest => do
        let b ← continuation? b
        let c ← scalar? 0x80 ((a.toNat - 0xC0) * 64 + b)
        return (c, rest)
      | _ => none
    else if a < 0xF0 then
      match rest with
      | b :: c :: rest => do
        let b ← continuation? b
        let c ← continuation? c
        let c ← scalar? 0x800 (((a.toNat - 0xE0) * 64 + b) * 64 + c)
        return (c, rest)
      | _ => none
    else
      match rest with
      | b :: c :: d :: rest => do
        let b ← continuation? b
        let c ← continuation? c
        let d ← continuation? d
        let c ← scalar? 0x10000 ((((a.toNat - 0xF0) * 64 + b) * 64 + c) * 64 + d)
        return (c, rest)
      | _ => none

/-- Reads all bytes, at most `fuel` characters; the error is the bytes from the first
misplaced one.
-/
def decodeFrom : Nat → List UInt8 → Except (List UInt8) Text
  | 0, _ => .ok []
  | _ + 1, [] => .ok []
  | fuel + 1, bytes =>
    match next? bytes with
    | some (c, rest) => return c :: (← decodeFrom fuel rest)
    | none => .error bytes

/-- The text of well-formed bytes, or the offset of the first sequence that is not well
formed.
-/
def decode (bytes : List UInt8) : Except Nat Text :=
  (decodeFrom bytes.length bytes).mapError (bytes.length - ·.length)

/-- Reads all bytes, at most `fuel` characters, each misplaced byte as the surrogate
`U+DC00` plus it.
-/
def decodeLossless : Nat → List UInt8 → Text
  | 0, _ => []
  | _ + 1, [] => []
  | fuel + 1, byte :: bytes =>
    match next? (byte :: bytes) with
    | some (c, rest) => c :: decodeLossless fuel rest
    | none => .ofNat (0xDC00 + byte.toNat) :: decodeLossless fuel bytes

/-- The text of any bytes, where misplaced bytes become lone surrogates. -/
def decodeEscaping (bytes : List UInt8) : Text :=
  decodeLossless bytes.length bytes

end JsonPath.Utf8
