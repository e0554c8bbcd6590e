import JsonPath.Number.Shortest

/-! Numbers of documents and queries: integers of any size and floating point numbers. They
are compared by the exact values they denote, on a line with an infinity at each end.
-/

namespace JsonPath

/-- A number; `1` and `1.0` are kept apart. -/
inductive Number where
  | int (n : Int)
  | float (x : Binary64)
  deriving DecidableEq

/-- A place on the line of numbers, in units of 2^-1074. -/
inductive Place where
  | below
  | finite (units : Int)
  | above
  deriving DecidableEq

namespace Place

/-- The order along the line. -/
def isLess : Place → Place → Bool
  | below, below => false
  | below, _ => true
  | finite _, below => false
  | finite m, finite n => m < n
  | finite _, above => true
  | above, _ => false

end Place

/-- The value of a floating point number. -/
def Binary64.place (x : Binary64) : Place :=
  if x.isInfinite then
    if x.negative then .below else .above
  else
    .finite (if x.negative then -(unitsAt x.index.val : Int) else unitsAt x.index.val)

namespace Number

/-- The exact value of a number. -/
def place : Number → Place
  | int n => .finite (n * Binary64.unitsInOne)
  | float x => x.place

/-- Two numbers are equal when they denote the same value. -/
def isEqual (a b : Number) : Bool :=
  a.place = b.place

def isLess (a b : Number) : Bool :=
  a.place.isLess b.place

/-- The text of a number in documents and queries. -/
def text : Number → Text
  | int n => Numeral.ofInt n
  | float x => x.text

/-- Whether the number is an infinity, which has no literal of its own. -/
def isInfinite : Number → Bool
  | int _ => false
  | float x => x.isInfinite

end Number

end JsonPath
