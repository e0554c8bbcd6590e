/-! The elements of an array that a slice selects. -/

namespace JsonPath.Slice

/-- A bound counted from the start, where a negative one counts from the end, moved into the
range.
-/
def clamp (length : Nat) (low high bound : Int) : Int :=
  let bound := if bound < 0 then bound + length else bound
  if bound < low then low else if high < bound then high else bound

/-- The index of the first element when the slice is not empty. -/
def first (length : Nat) (start : Option Int) (step : Int) : Int :=
  if 0 < step then
    (start.map (clamp length 0 length)).getD 0
  else
    (start.map (clamp length (-1) (length - 1))).getD (length - 1)

/-- The index in front of which the slice ends, in the direction of its step. -/
def last (length : Nat) (stop : Option Int) (step : Int) : Int :=
  if 0 < step then
    (stop.map (clamp length 0 length)).getD length
  else
    (stop.map (clamp length (-1) (length - 1))).getD (-1)

/-- The number of elements from one index to another in equal steps. -/
def count (first last step : Int) : Nat :=
  if 0 < step then ((last - first + step - 1) / step).toNat
  else ((first - last - step - 1) / -step).toNat

/-- The selected indexes of an array of the given length, in the order of selection. A step
of zero selects nothing.
-/
def indices (length : Nat) (start stop : Option Int) (step : Int) : List Nat :=
  if step = 0 then []
  else
    let first := first length start step
    (List.range (count first (last length stop step) step)).map fun (i : Nat) =>
      (first + (i : Int) * step).toNat

end JsonPath.Slice
