import JsonPath.Text.Category.Basic
import JsonPath.Text.Space

/-! Regular expressions over code points: characters of a class, anchors, sequences,
alternatives and repetitions, with a preference among the ways to match. Groups count from
one in the order in which they open, and conditions can depend on whether they have matched.
-/

namespace JsonPath

/-- A part of a character class: a range of code points, or a kind of character or its
complement.
-/
inductive ClassItem where
  | range (first last : Nat)
  | digit (negated : Bool)
  | space (negated : Bool)
  | word (negated : Bool)
  deriving DecidableEq

/-- The characters in any of the items, or those in none of them when `negated`. -/
structure CharClass where
  negated : Bool
  items : List ClassItem
  deriving DecidableEq

/-- A condition on the place between two characters. The end also holds in front of a final
line feed, the last end does not.
-/
inductive Anchor where
  | start
  | finish
  | lastFinish
  | boundary
  | noBoundary
  deriving DecidableEq

inductive Pattern where
  | empty
  | char (charClass : CharClass)
  | anchor (anchor : Anchor)
  | sequence (first second : Pattern)
  | alternative (first second : Pattern)
  /-- The body, whose matches the group of this number captures. -/
  | group (number : Nat) (name : Option Text) (body : Pattern)
  /-- The first pattern if the group of this number has matched, and the second one if not. -/
  | conditional (number : Nat) (first second : Pattern)
  /-- At least `least` and at most `most` times the body, preferring many times when
  `greedy`.
  -/
  | repeated (greedy : Bool) (least : Nat) (most : Option Nat) (body : Pattern)
  /-- Only the preferred match of the body. -/
  | atomic (body : Pattern)
  deriving DecidableEq

namespace ClassItem

def contains (item : ClassItem) (c : CodePoint) : Bool :=
  match item with
  | range first last => first ≤ c.toNat && c.toNat ≤ last
  | digit negated => c.isDecimal != negated
  | space negated => c.isSpace != negated
  | word negated => c.isWord != negated

end ClassItem

namespace CharClass

def contains (charClass : CharClass) (c : CodePoint) : Bool :=
  (charClass.items.any (·.contains c)) != charClass.negated

/-- The class of one character. -/
def single (n : Nat) : CharClass :=
  ⟨false, [.range n n]⟩

end CharClass

namespace Pattern

/-- The names of the groups of a pattern, in the order in which they open. -/
def groups : Pattern → List (Option Text)
  | empty | char _ | anchor _ => []
  | sequence first second | alternative first second => first.groups ++ second.groups
  | group _ name body => name :: body.groups
  | conditional _ first second => first.groups ++ second.groups
  | repeated _ _ _ body | atomic body => body.groups

/-- The numbers of the groups that a pattern depends on. -/
def references : Pattern → List Nat
  | empty | char _ | anchor _ => []
  | sequence first second | alternative first second => first.references ++ second.references
  | group _ _ body => body.references
  | conditional number first second => number :: (first.references ++ second.references)
  | repeated _ _ _ body | atomic body => body.references

/-- The pattern without the groups of other numbers, which take part in the match as their
bodies.
-/
def withGroups (numbers : List Nat) : Pattern → Pattern
  | empty => empty
  | char charClass => char charClass
  | anchor condition => anchor condition
  | sequence first second => sequence (first.withGroups numbers) (second.withGroups numbers)
  | alternative first second =>
    alternative (first.withGroups numbers) (second.withGroups numbers)
  | group number name body =>
    if number ∈ numbers then group number name (body.withGroups numbers)
    else body.withGroups numbers
  | conditional number first second =>
    conditional number (first.withGroups numbers) (second.withGroups numbers)
  | repeated greedy least most body => repeated greedy least most (body.withGroups numbers)
  | atomic body => atomic (body.withGroups numbers)

end Pattern

end JsonPath
