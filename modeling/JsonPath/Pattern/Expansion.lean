import JsonPath.Text.Category.Basic
import JsonPath.Text.Numeral

/-! Expansion of I-Regexp patterns into plain regular expressions: category escapes become
classes of ranges, and a dot outside a class becomes the class of all characters but line
feed and carriage return.
-/

namespace JsonPath.Pattern

/-- The names that category escapes accept. -/
def categoryNames : List String := [
  "L", "Lu", "Ll", "Lt", "Lm", "Lo",
  "M", "Mn", "Mc", "Me",
  "N", "Nd", "Nl", "No",
  "P", "Pc", "Pd", "Ps", "Pe", "Pi", "Pf", "Po",
  "Z", "Zs", "Zl", "Zp",
  "S", "Sm", "Sc", "Sk", "So",
  "C", "Cc", "Cf", "Co", "Cn"
]

/-- A code point as an escape of eight digits. -/
def rangeEnd (n : Nat) : Text :=
  "\\U" ++ Numeral.hex 8 n

/-- A range as part of a class. -/
def rangeText (range : Nat × Nat) : Text :=
  if range.1 = range.2 then rangeEnd range.1
  else rangeEnd range.1 ++ .char '-' :: rangeEnd range.2

/-- The ranges of a category, or of all other code points, as part of a class. -/
def categoryText (name : List Char) (negated : Bool) : Text :=
  (Category.ranges name negated Category.runs.get).flatMap rangeText

/-- The scalar values at the start that are ASCII letters, and what follows them. -/
def letters : Text → List Char × Text
  | .char c :: rest =>
    if c.isAlpha then
      let (name, after) := letters rest
      (c :: name, after)
    else
      ([], .char c :: rest)
  | rest => ([], rest)

/-- The category escape whose backslash comes before the text: the name of the category,
whether it is negated, and the text after it.
-/
def categoryEscape? (t : Text) : Option (List Char × Bool × Text) :=
  match t with
  | .char p :: .char '\x7b' :: rest =>
    if p = 'p' ∨ p = 'P' then
      match letters rest with
      | ([], _) => none
      | (name, .char '\x7d' :: rest) => some (name, p = 'P', rest)
      | _ => none
    else
      none
  | _ => none

/-- Expands a pattern from inside or outside a class on. Every bracket that is not escaped
opens or closes a class here. The pattern is refused when it names an unknown category.
-/
def expandFrom (inClass : Bool) : Nat → Text → Option Text
  | 0, _ => some []
  | _ + 1, [] => some []
  | limit + 1, .char '\\' :: rest =>
    match categoryEscape? rest with
    | some (name, negated, rest) =>
      if categoryNames.contains (String.ofList name) then do
        let ranges := categoryText name negated
        let expansion ← expandFrom inClass limit rest
        return (if inClass then ranges else .char '[' :: ranges ++ [.char ']']) ++ expansion
      else
        none
    | none =>
      match rest with
      | [] => some [.char '\\']
      | c :: rest => return .char '\\' :: c :: (← expandFrom inClass limit rest)
  | limit + 1, .char '[' :: rest => return .char '[' :: (← expandFrom true limit rest)
  | limit + 1, .char ']' :: rest => return .char ']' :: (← expandFrom false limit rest)
  | limit + 1, .char '.' :: rest => do
    let expansion ← expandFrom inClass limit rest
    return (if inClass then "." else "[^\\n\\r]") ++ expansion
  | limit + 1, c :: rest => return c :: (← expandFrom inClass limit rest)

/-- The plain regular expression of an I-Regexp pattern. -/
def expand (pattern : Text) : Option Text :=
  expandFrom false (pattern.length + 1) pattern

end JsonPath.Pattern
