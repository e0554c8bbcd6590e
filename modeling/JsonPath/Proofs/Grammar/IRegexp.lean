import JsonPath.Pattern.Reader
import Mathlib.Computability.Language

/-! The grammar of I-Regexps, one production for each of its rules, together with what each
text stands for: a class stands for a set of code points, and all else for a language.
Alternatives in which groups are nested tie the knot by the depth of nesting.
-/

namespace JsonPath.IRegexp

open Pattern (maxRepeat)

/-- The texts of one character, in the set. -/
def singles (set : CodePoint → Prop) : Language CodePoint :=
  {w | ∃ c, set c ∧ w = [c]}

/-- At least `least` and at most `most` words of the language, one after another. -/
def between (least : Nat) (most : Option Nat) (L : Language CodePoint) : Language CodePoint :=
  {w | ∃ count, least ≤ count ∧ (∀ bound ∈ most, count ≤ bound) ∧ w ∈ L ^ count}

-----------------------------------------------------------------------------------------
-- Characters and categories
-----------------------------------------------------------------------------------------

/-- The characters that do not stand for themselves outside classes. -/
def operators : List Char :=
  ['(', ')', '*', '+', '.', '?', '[', '\\', ']', '\x7b', '|', '\x7d']

/-- The characters that other regular expressions take for conditions on places, although
they stand for themselves in an I-Regexp.
-/
def marks : List Char := ['^', '$']

/-- The characters that do not stand for themselves inside classes. -/
def classOperators : List Char := ['-', '[', '\\', ']']

/-- The characters that can follow a backslash, and those they stand for. -/
def escapes : List (Char × Char) := [
  ('(', '('), (')', ')'), ('*', '*'), ('+', '+'), ('-', '-'), ('.', '.'), ('?', '?'),
  ('[', '['), ('\\', '\\'), (']', ']'), ('^', '^'), ('n', '\n'), ('r', '\r'), ('t', '\t'),
  ('\x7b', '\x7b'), ('|', '|'), ('\x7d', '\x7d')
]

/-- The letters of the major classes, and those of the categories in each. -/
def categories : List (Char × List Char) := [
  ('L', ['l', 'm', 'o', 't', 'u']),
  ('M', ['c', 'e', 'n']),
  ('N', ['d', 'l', 'o']),
  ('P', ['c', 'd', 'e', 'f', 'i', 'o', 's']),
  ('Z', ['l', 'p', 's']),
  ('S', ['c', 'k', 'm', 'o']),
  ('C', ['c', 'f', 'n', 'o'])
]

inductive IsCategoryName : List Char → Prop
  | major {major minors} (mem : (major, minors) ∈ categories) : IsCategoryName [major]
  | minor {major minors minor} (mem : (major, minors) ∈ categories) (isMinor : minor ∈ minors)
    : IsCategoryName [major, minor]

/-- A category escape stands for the code points of a general category, or for all others. -/
inductive CategoryEscape : Text → (CodePoint → Prop) → Prop
  | category {name} (isName : IsCategoryName name)
    : CategoryEscape (.char '\\' :: .char 'p' :: .char '\x7b' :: name.map .char ++ [.char '\x7d'])
        fun c => c.category.isNamed name
  | complement {name} (isName : IsCategoryName name)
    : CategoryEscape (.char '\\' :: .char 'P' :: .char '\x7b' :: name.map .char ++ [.char '\x7d'])
        fun c => ¬c.category.isNamed name

-----------------------------------------------------------------------------------------
-- Classes
-----------------------------------------------------------------------------------------

/-- A character of a class. -/
inductive ClassCharacter : Text → Char → Prop
  | plain {c : Char} (isPlain : c ∉ classOperators) : ClassCharacter [.char c] c
  | escape {c d : Char} (isEscape : (c, d) ∈ escapes)
    : ClassCharacter [.char '\\', .char c] d

/-- A character, an ascending range or a category. -/
inductive ClassPart : Text → (CodePoint → Prop) → Prop
  | character {w c} (spelling : ClassCharacter w c) : ClassPart w (· = .char c)
  | range {w w' first last} (hasFirst : ClassCharacter w first) (hasLast : ClassCharacter w' last)
    (ascending : first ≤ last)
    : ClassPart (w ++ .char '-' :: w') fun c => first.toNat ≤ c.toNat ∧ c.toNat ≤ last.toNat
  | category {w set} (spelling : CategoryEscape w set) : ClassPart w set

/-- Parts of a class, and a dash that can stand behind them. -/
inductive ClassParts : Text → (CodePoint → Prop) → Prop
  | none : ClassParts [] fun _ => False
  | dash : ClassParts [.char '-'] (· = .char '-')
  | more {w set w' others} (first : ClassPart w set) (rest : ClassParts w' others)
    : ClassParts (w ++ w') fun c => set c ∨ others c

/-- What stands between the brackets of a class. -/
inductive ClassContent : Text → (CodePoint → Prop) → Prop
  | dash {w set} (rest : ClassParts w set)
    : ClassContent (.char '-' :: w) fun c => c = .char '-' ∨ set c
  | part {w set w' others} (first : ClassPart w set) (rest : ClassParts w' others)
    : ClassContent (w ++ w') fun c => set c ∨ others c

/-- A class in brackets. A caret at its start makes it the complement, unless it is all there
is: a caret alone is a character, which is where `marked` matters.
-/
inductive ClassExpression (marked : Bool) : Text → (CodePoint → Prop) → Prop
  | positive {w set} (content : ClassContent w set) (noCaret : w.head? ≠ some (.char '^'))
    : ClassExpression marked (.char '[' :: w ++ [.char ']']) set
  | negative {w set} (content : ClassContent w set)
    : ClassExpression marked (.char '[' :: .char '^' :: w ++ [.char ']']) fun c => ¬set c
  | caret (isMarked : marked)
    : ClassExpression marked [.char '[', .char '^', .char ']'] (· = .char '^')

-----------------------------------------------------------------------------------------
-- Expressions
-----------------------------------------------------------------------------------------

/-- The digits of a count below the first one that is too large. -/
structure IsCount (digits : Text) (count : Nat) : Prop where
  notEmpty : digits ≠ []
  areDigits : ∀ c ∈ digits, CodePoint.isDigit c
  value : Numeral.toNat digits = count
  notLong : digits.length ≤ Numeral.longest
  inRange : count < maxRepeat

/-- A quantifier with the least and the greatest number of repetitions. -/
inductive Quantifier : Text → Nat → Option Nat → Prop
  | any : Quantifier [.char '*'] 0 none
  | some : Quantifier [.char '+'] 1 none
  | optional : Quantifier [.char '?'] 0 (some 1)
  | exactly {digits count} (isCount : IsCount digits count)
    : Quantifier (.char '\x7b' :: digits ++ [.char '\x7d']) count (some count)
  | atLeast {digits count} (isCount : IsCount digits count)
    : Quantifier (.char '\x7b' :: digits ++ [.char ',', .char '\x7d']) count none
  | between {low least high most} (isLeast : IsCount low least) (isMost : IsCount high most)
    (order : least ≤ most)
    : Quantifier (.char '\x7b' :: low ++ .char ',' :: high ++ [.char '\x7d']) least (some most)

section Expressions

variable (marked : Bool) (Nested : Text → Language CodePoint → Prop)

/-- What a quantifier can follow. The marks stand for themselves where they are `marked`. -/
inductive Atom : Text → Language CodePoint → Prop
  | plain {c : Char} (isPlain : c ∉ operators) (notMark : marked ∨ c ∉ marks)
    : Atom [.char c] (singles (· = .char c))
  | dot : Atom [.char '.'] (singles fun c => c ≠ .char '\n' ∧ c ≠ .char '\r')
  | escape {c d : Char} (isEscape : (c, d) ∈ escapes)
    : Atom [.char '\\', .char c] (singles (· = .char d))
  | category {w set} (spelling : CategoryEscape w set) : Atom w (singles set)
  | charClass {w set} (spelling : ClassExpression marked w set) : Atom w (singles set)
  | group {w L} (spelling : Nested w L) : Atom (.char '(' :: w ++ [.char ')']) L

/-- An atom, which can have a quantifier. -/
inductive Piece : Text → Language CodePoint → Prop
  | once {w L} (spelling : Atom marked Nested w L) : Piece w L
  | repeated {w L w' least most} (spelling : Atom marked Nested w L)
    (quantifier : Quantifier w' least most)
    : Piece (w ++ w') (between least most L)

/-- Any number of pieces, one after another. -/
inductive Branch : Text → Language CodePoint → Prop
  | none : Branch [] 1
  | more {w L w' M} (first : Piece marked Nested w L) (rest : Branch w' M)
    : Branch (w ++ w') (L * M)

/-- Branches with bars between them. -/
inductive Branches : Text → Language CodePoint → Prop
  | one {w L} (spelling : Branch marked Nested w L) : Branches w L
  | more {w L w' M} (first : Branch marked Nested w L) (rest : Branches w' M)
    : Branches (w ++ .char '|' :: w') (L + M)

end Expressions

/-- The text is an I-Regexp for the language, with groups nested less than `depth` deep. Marks
stand for themselves where it is `marked`, and cannot stand there unescaped otherwise.
-/
def IsRegexp (marked : Bool) : Nat → Text → Language CodePoint → Prop
  | 0 => fun _ _ => False
  | depth + 1 => Branches marked (IsRegexp marked depth)

end JsonPath.IRegexp
