import JsonPath.Text.Category.Table
import JsonPath.Text.Numeral

/-! General categories of code points, and the runs of code points that share one. `runsOf`
finds the runs of any assignment of categories; `runs` are those of Unicode.
-/

namespace JsonPath

/-- A general category such as `Lu`: the letter of its major class and its own letter. -/
structure Category where
  major : Char
  minor : Char
  deriving DecidableEq, Inhabited

namespace Category

/-- Whether the category has this name, or belongs to the major class of this name. -/
def isNamed (category : Category) (name : List Char) : Bool :=
  name = [category.major] || name = [category.major, category.minor]

/-- First code point and category of each run of a table of lengths, from `first` on, when
`length` is the number read so far.
-/
def startsFrom (first length : Nat) : List Char → List (Nat × Category)
  | [] => []
  | c :: rest =>
    if c.isDigit then
      startsFrom first (length * 10 + (c.toNat - '0'.toNat)) rest
    else
      match rest with
      | [] => []
      | d :: rest => (first, ⟨c, d⟩) :: startsFrom (first + length) 0 rest

/-- First code point and category of each run of code points. -/
def starts : Array (Nat × Category) :=
  (startsFrom 0 0 (String.join runLengths).toList).toArray

/-- Halves the range from `low` to `high` excluded, at most the given number of times,
keeping the last entry of the table whose start is at or below `n` inside.
-/
def search (table : Array (Nat × Category)) (n low high : Nat) : Nat → Nat
  | 0 => low
  | steps + 1 =>
    let middle := (low + high) / 2
    match table[middle]? with
    | some (start, _) =>
      if start ≤ n then search table n middle high steps else search table n low middle steps
    | none => low

/-- Start and category of the run of a table to which the code point with number `n`
belongs.
-/
def lookup (table : Array (Nat × Category)) (n : Nat) : Nat × Category :=
  (table[search table n 0 table.size (table.size.log2 + 1)]?).getD (n, ⟨'C', 'n'⟩)

/-- The general category of the code point with number `n`. -/
def ofNat (n : Nat) : Category :=
  (lookup starts n).2

/-- The first code point of the run to which the code point with number `n` belongs. -/
def startOf (n : Nat) : Nat :=
  (lookup starts n).1

/-- Consecutive code points of one category, from `first` to `last`. -/
structure Run where
  first : Nat
  last : Nat
  category : Category
  deriving DecidableEq

/-- The runs from `first` on, when the code points from `first` to `next` excluded share the
category `current` and `count` more code points follow.
-/
def runsFrom (category : Nat → Category) (first : Nat) (current : Category) (next : Nat)
    : Nat → List Run
  | 0 => [⟨first, next - 1, current⟩]
  | count + 1 =>
    if category next = current then
      runsFrom category first current (next + 1) count
    else
      ⟨first, next - 1, current⟩ :: runsFrom category next (category next) (next + 1) count

/-- The maximal runs of code points that share a category, in increasing order. -/
def runsOf (category : Nat → Category) : List Run :=
  runsFrom category 0 (category 0) 1 (CodePoint.limit - 1)

/-- The runs of the general categories of Unicode, computed when they are first needed. -/
def runs : Thunk (List Run) :=
  Thunk.mk fun _ => runsOf ofNat

/-- The range in front of others, joined to the first of them when that one follows
directly.
-/
def joinRange (first last : Nat) : List (Nat × Nat) → List (Nat × Nat)
  | [] => [(first, last)]
  | (first', last') :: rest =>
    if first' = last + 1 then (first, last') :: rest else (first, last) :: (first', last') :: rest

/-- The ranges of the code points in the category of this name, or of all others when
`negated`.
-/
def ranges (name : List Char) (negated : Bool) : List Run → List (Nat × Nat)
  | [] => []
  | run :: rest =>
    if run.category.isNamed name = negated then
      ranges name negated rest
    else
      joinRange run.first run.last (ranges name negated rest)

end Category

namespace CodePoint

/-- The general category of a code point. -/
def category (c : CodePoint) : Category :=
  Category.ofNat c.toNat

/-- A decimal digit of any script. -/
def isDecimal (c : CodePoint) : Bool :=
  c.category = ⟨'N', 'd'⟩

/-- The digits that are not decimal: superscripts, subscripts and enclosed or scriptless
digits.
-/
def otherDigits : List (Nat × Nat) := [
  (0xB2, 0xB3), (0xB9, 0xB9), (0x1369, 0x1371), (0x19DA, 0x19DA), (0x2070, 0x2070),
  (0x2074, 0x2079), (0x2080, 0x2089), (0x2460, 0x2468), (0x2474, 0x247C), (0x2488, 0x2490),
  (0x24EA, 0x24EA), (0x24F5, 0x24FD), (0x24FF, 0x24FF), (0x2776, 0x277E), (0x2780, 0x2788),
  (0x278A, 0x2792), (0x10A40, 0x10A43), (0x10E60, 0x10E68), (0x11052, 0x1105A), (0x1F100, 0x1F10A)
]

/-- A character of numeric type digit or decimal. Those below 0x80 are the ten ASCII digits.
-/
def isNumericDigit (c : CodePoint) : Bool :=
  if c.toNat < 0x80 then c.isDigit
  else c.isDecimal || otherDigits.any fun (first, last) => first ≤ c.toNat && c.toNat ≤ last

/-- A letter, a number or the underscore. -/
def isWord (c : CodePoint) : Bool :=
  c = .char '_' || c.category.major = 'L' || c.category.major = 'N'

/-- A character with a graphic of its own, or the space. -/
def isPrintable (c : CodePoint) : Bool :=
  c = .char ' ' || !(c.category.major = 'C' || c.category.major = 'Z')

end CodePoint

end JsonPath
