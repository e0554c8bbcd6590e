import JsonPath.Text.Category.Basic

/-! Identifiers in the sense of Unicode: a letter or an underscore, then any of these, marks,
digits and connectors. A few code points are in or out against their category.
-/

namespace JsonPath

namespace CodePoint

/-- The number of the code point is in one of the ranges. -/
def isWithin (ranges : List (Nat × Nat)) (c : CodePoint) : Bool :=
  ranges.any fun (first, last) => first ≤ c.toNat && c.toNat ≤ last

/-- Letters whose compatible form starts no identifier, or would not go on with one. -/
def incompatible : List (Nat × Nat) := [
  (0x37A, 0x37A), (0x2E2F, 0x2E2F), (0xFC5E, 0xFC63), (0xFDFA, 0xFDFB), (0xFE70, 0xFE70),
  (0xFE72, 0xFE72), (0xFE74, 0xFE74), (0xFE76, 0xFE76), (0xFE78, 0xFE78), (0xFE7A, 0xFE7A),
  (0xFE7C, 0xFE7C), (0xFE7E, 0xFE7E)
]

/-- Letters that only continue identifiers. -/
def onlyContinuing : List (Nat × Nat) :=
  [(0xE33, 0xE33), (0xEB3, 0xEB3), (0xFF9E, 0xFF9F)]

/-- What starts identifiers besides letters. -/
def otherStarts : List (Nat × Nat) :=
  [(0x1885, 0x1886), (0x2118, 0x2118), (0x212E, 0x212E)]

/-- What continues identifiers besides letters, marks, digits and connectors. -/
def otherParts : List (Nat × Nat) :=
  [(0xB7, 0xB7), (0x387, 0x387), (0x1369, 0x1371), (0x19DA, 0x19DA), (0x2118, 0x2118),
    (0x212E, 0x212E)]

/-- A letter, or a number that is written like one. -/
def isLetterLike (c : CodePoint) : Bool :=
  c.category.major = 'L' || c.category = ⟨'N', 'l'⟩

/-- A code point that can start an identifier. -/
def startsIdentifier : CodePoint → Bool
  | surrogate _ => false
  | char c =>
    if c.toNat < 0x80 then c.isAlpha || c = '_'
    else
      (char c).isLetterLike && !(char c).isWithin (incompatible ++ onlyContinuing)
        || (char c).isWithin otherStarts

/-- A code point that can continue an identifier. -/
def continuesIdentifier : CodePoint → Bool
  | surrogate _ => false
  | char c =>
    if c.toNat < 0x80 then c.isAlphanum || c = '_'
    else
      let category := (char c).category
      ((char c).isLetterLike || category = ⟨'M', 'n'⟩ || category = ⟨'M', 'c'⟩
          || category = ⟨'N', 'd'⟩ || category = ⟨'P', 'c'⟩)
        && !(char c).isWithin incompatible
        || (char c).isWithin otherParts

end CodePoint

/-- Whether the text is an identifier. -/
def Text.isIdentifier : Text → Bool
  | [] => false
  | c :: rest => c.startsIdentifier && rest.all CodePoint.continuesIdentifier

end JsonPath
