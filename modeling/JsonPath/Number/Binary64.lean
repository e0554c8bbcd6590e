/-! The values of the 64-bit binary floating point format, infinities included and without a
not-a-number. The magnitudes of the format are counted in increasing order, so that a number
is a sign and an index: index 0 is zero, the next 2^52 indexes are subnormal or in the
lowest binade, and the last is infinity. Every finite magnitude is a whole number of units
of 2^-1074.
-/

namespace JsonPath

namespace Binary64

/-- The number of magnitudes from one power of two to the next. -/
def binade : Nat := Nat.pow 2 52

/-- The index of the infinite magnitude. -/
def infinityIndex : Nat := 2047 * binade

/-- The number of units in one. -/
def unitsInOne : Nat := Nat.pow 2 1074

end Binary64

structure Binary64 where
  negative : Bool
  index : Fin (Binary64.infinityIndex + 1)
  deriving DecidableEq

namespace Binary64

def isInfinite (x : Binary64) : Bool :=
  x.index.val = infinityIndex

def isZero (x : Binary64) : Bool :=
  x.index.val = 0

/-- The magnitude at a finite index, in units. -/
def unitsAt (index : Nat) : Nat :=
  if index < binade then index else (binade + index % binade) * Nat.pow 2 (index / binade - 1)

/-- The quotient rounded to the nearest natural number, a half going to the even one. -/
def roundQuotient (numerator denominator : Nat) : Nat :=
  let quotient := numerator / denominator
  let twice := 2 * (numerator % denominator)
  if twice < denominator then quotient
  else if denominator < twice then quotient + 1
  else quotient + quotient % 2

/-- The index of the magnitude nearest to a quotient of units, a half going to the even
index.
-/
def nearestIndex (numerator denominator : Nat) : Nat :=
  let shift := (numerator / denominator).log2 + 1 - 53
  shift * binade + roundQuotient numerator (denominator * Nat.pow 2 shift)

/-- The number with the given index, where all indexes beyond the last mean infinity. -/
def ofIndex (negative : Bool) (index : Nat) : Binary64 :=
  ⟨negative, ⟨min index infinityIndex, by omega⟩⟩

/-- The index of the number nearest to `significand * 10 ^ exponent`. Exponents far outside
the range of the format are decided without computing the power.
-/
def decimalIndex (significand : Nat) (exponent : Int) : Nat :=
  if significand = 0 then 0
  else
    match exponent with
    | .ofNat e =>
      if 400 < e then infinityIndex
      else nearestIndex (significand * Nat.pow 10 e * unitsInOne) 1
    | .negSucc e =>
      if significand.log2 + 400 < e then 0
      else nearestIndex (significand * unitsInOne) (Nat.pow 10 (e + 1))

/-- The number nearest to `significand * 10 ^ exponent`, with the given sign. -/
def ofDecimal (negative : Bool) (significand : Nat) (exponent : Int) : Binary64 :=
  ofIndex negative (decimalIndex significand exponent)

end Binary64

end JsonPath
