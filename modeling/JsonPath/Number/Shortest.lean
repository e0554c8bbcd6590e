import JsonPath.Number.Binary64
import JsonPath.Text.Numeral

/-! Decimal text of floating point numbers: the fewest digits that read back as the same
number and, of those, the nearest to it.
-/

namespace JsonPath

/-- The decimal number `significand * 10 ^ exponent`. -/
structure Decimal where
  significand : Nat
  exponent : Int
  deriving DecidableEq

namespace Binary64

/-- Whether the decimal reads back as the magnitude at `index`. -/
def readsBack (index : Nat) (d : Decimal) : Bool :=
  min (decimalIndex d.significand d.exponent) infinityIndex = index

/-- The magnitude at `index` divided by a power of ten, as numerator and denominator. -/
def scaled (index : Nat) : Int → Nat × Nat
  | .ofNat e => (unitsAt index, unitsInOne * Nat.pow 10 e)
  | .negSucc e => (unitsAt index * Nat.pow 10 (e + 1), unitsInOne)

/-- The multiple of `10 ^ exponent` next to the magnitude that reads back as it, the nearer
one when both do and the even one when they are equally near.
-/
def onGrid? (index : Nat) (exponent : Int) : Option Decimal :=
  let (numerator, denominator) := scaled index exponent
  let low : Decimal := ⟨numerator / denominator, exponent⟩
  let high : Decimal := ⟨numerator / denominator + 1, exponent⟩
  let near : Decimal := ⟨roundQuotient numerator denominator, exponent⟩
  if readsBack index near then some near
  else if readsBack index low then some low
  else if readsBack index high then some high
  else none

/-- The exponent of the leading decimal digit of the magnitude at `index`. Scaled by 10^324,
every magnitude but zero is at least one.
-/
def leadingExponent (index : Nat) : Int :=
  (Numeral.ofNat (unitsAt index * Nat.pow 10 324 / unitsInOne)).length - 325

/-- The magnitude at `index` written out in full. -/
def exact (index : Nat) : Decimal :=
  ⟨unitsAt index * Nat.pow 5 1074, -1074⟩

/-- Tries grids of more and more digits, `count` in all, of which `digits + 1` is the next.
-/
def shortestFrom (index : Nat) (leading : Int) (digits : Nat) : Nat → Decimal
  | 0 => exact index
  | count + 1 =>
    match onGrid? index (leading - digits) with
    | some d => d
    | none => shortestFrom index leading (digits + 1) count

/-- The shortest decimal that reads back as the finite magnitude at `index`. Seventeen
digits are always enough.
-/
def shortest (index : Nat) : Decimal :=
  if index = 0 then ⟨0, 0⟩ else shortestFrom index (leadingExponent index) 0 17

/-- The numeral without its trailing zeros. -/
def dropTrailingZeros (digits : Text) : Text :=
  (digits.reverse.dropWhile (· = .char '0')).reverse

/-- The numeral of an exponent: a sign and at least two digits. -/
def exponentText (exponent : Int) : Text :=
  let digits := Numeral.ofNat exponent.natAbs
  .char (if exponent < 0 then '-' else '+')
    :: (if digits.length < 2 then .char '0' :: digits else digits)

/-- A significand and the exponent of its first digit as text: positional while the exponent
is at least -4 and below 16, with at least one digit after the point.
-/
def layout (digits : Text) (leading : Int) : Text :=
  if -4 ≤ leading ∧ leading < 16 then
    match leading with
    | .ofNat e =>
      let whole := digits.take (e + 1) ++ List.replicate (e + 1 - digits.length) (.char '0')
      let fraction := digits.drop (e + 1)
      whole ++ .char '.' :: (if fraction.isEmpty then [.char '0'] else fraction)
    | .negSucc e => .char '0' :: .char '.' :: (List.replicate e (.char '0') ++ digits)
  else
    match digits with
    | [] => []
    | [digit] => digit :: .char 'e' :: exponentText leading
    | digit :: rest => digit :: .char '.' :: rest ++ .char 'e' :: exponentText leading

/-- The text of a magnitude. -/
def magnitudeText (index : Nat) : Text :=
  if index = infinityIndex then
    "Infinity"
  else if index = 0 then
    "0.0"
  else
    let d := shortest index
    let digits := Numeral.ofNat d.significand
    layout (dropTrailingZeros digits) (d.exponent + (digits.length - 1 : Nat))

/-- The text of a number: a minus sign when it is negative, zero included, and its
magnitude.
-/
def text (x : Binary64) : Text :=
  if x.negative then .char '-' :: magnitudeText x.index.val else magnitudeText x.index.val

end Binary64

end JsonPath
