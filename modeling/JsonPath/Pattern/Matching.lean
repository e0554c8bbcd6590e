import JsonPath.Pattern.Basic

/-! Matching: the points that a match can get to from a given one, in order of preference. A
point is a place, which counts the characters of the subject before it, together with the
groups that have matched on the way.
-/

namespace JsonPath

/-- Whether a word character stands on exactly one side of a place of a subject that is not
empty.
-/
def isBoundary (subject : Array CodePoint) (place : Nat) : Bool :=
  let before := if place = 0 then false else (subject[place - 1]?).any CodePoint.isWord
  before != (subject[place]?).any CodePoint.isWord

def Anchor.holds (anchor : Anchor) (subject : Array CodePoint) (place : Nat) : Bool :=
  match anchor with
  | start => place = 0
  | finish =>
    place = subject.size
      || place + 1 = subject.size && subject[place]? = some (.char '\n')
  | lastFinish => place = subject.size
  | boundary => !subject.isEmpty && isBoundary subject place
  | noBoundary => !subject.isEmpty && !isBoundary subject place

/-- The numbers of the groups that have matched, in increasing order, each with whether the
match has ended right here.
-/
abbrev Captured := List (Nat × Bool)

namespace Captured

/-- The matches when a character has been passed. -/
def moved (captured : Captured) : Captured :=
  captured.map fun (number, _) => (number, false)

/-- The matches when a group starts, which gives up an older match of the group unless that
has ended right here.
-/
def opened (number : Nat) (captured : Captured) : Captured :=
  captured.filter fun (other, isHere) => other ≠ number || isHere

/-- The matches when a group has matched. -/
def closed (number : Nat) : Captured → Captured
  | [] => [(number, true)]
  | (other, isHere) :: captured =>
    if other < number then (other, isHere) :: closed number captured
    else if other = number then (number, true) :: captured
    else (number, true) :: (other, isHere) :: captured

/-- Whether a group has matched. -/
def has (number : Nat) (captured : Captured) : Bool :=
  captured.any fun (other, _) => other = number

end Captured

/-- How far a match has got. -/
structure Point where
  place : Nat
  captured : Captured
  deriving DecidableEq

namespace Pattern

/-- Visits what is reachable from a state by `next`, each state once and at most `limit`
steps away: behind the states after it, or in front of them when `early`. The states visited
come in reverse.
-/
def visit {α : Type} [DecidableEq α] (early : Bool) (next : α → List α)
    : Nat → List α → α → List α
  | 0, visited, _ => visited
  | limit + 1, visited, state =>
    if state ∈ visited then visited
    else if early then (next state).foldl (visit early next limit) (state :: visited)
    else state :: (next state).foldl (visit early next limit) visited

section Repetition

variable (ends : Point → List Point)

/-- The points after one more repetition, together with the number of repetitions that may
follow. No repetition follows one that passed nothing.
-/
def repeatOnce : Option Nat × Point → List (Option Nat × Point)
  | (some 0, _) => []
  | (count, point) =>
    (ends point).map fun after =>
      if after.place = point.place then (some 0, after) else (count.map (· - 1), after)

/-- The points after up to `most` repetitions. -/
def repeatUpTo (size : Nat) (greedy : Bool) (most : Option Nat) (point : Point)
    : List Point :=
  let visited := visit (!greedy) (repeatOnce ends) (size + 2 - point.place) [] (most, point)
  (visited.reverse.map (·.2)).eraseDups

/-- The points after exactly `count` repetitions. Further repetitions reach nothing new once
one of them leads back to the same points.
-/
def repeatExactly : Nat → List Point → List Point
  | 0, points => points
  | count + 1, points =>
    let after := (points.flatMap ends).eraseDups
    if after = points then points else repeatExactly count after

/-- The points after `least` to `most` repetitions. -/
def repeatEnds (size : Nat) (greedy : Bool) (least : Nat) (most : Option Nat) (point : Point)
    : List Point :=
  ((repeatExactly ends least [point]).flatMap
    (repeatUpTo ends size greedy (most.map (· - least)))).eraseDups

end Repetition

/-- The points that a match can get to from a point, preferred ones first. -/
def ends (subject : Array CodePoint) : Pattern → Point → List Point
  | empty, point => [point]
  | char charClass, ⟨place, captured⟩ =>
    if (subject[place]?).any charClass.contains then [⟨place + 1, captured.moved⟩] else []
  | anchor condition, point => if condition.holds subject point.place then [point] else []
  | sequence first second, point =>
    ((ends subject first point).flatMap (ends subject second)).eraseDups
  | alternative first second, point =>
    (ends subject first point ++ ends subject second point).eraseDups
  | group number _ body, ⟨place, captured⟩ =>
    ((ends subject body ⟨place, captured.opened number⟩).map fun after =>
      ⟨after.place, after.captured.closed number⟩).eraseDups
  | conditional number first second, point =>
    if point.captured.has number then ends subject first point else ends subject second point
  | repeated greedy least most body, point =>
    repeatEnds (ends subject body) subject.size greedy least most point
  | atomic body, point => (ends subject body point).take 1

/-- Whether the pattern matches the whole text. -/
def isMatch (pattern : Pattern) (t : Text) : Bool :=
  (ends t.toArray pattern ⟨0, []⟩).any (·.place = t.length)

/-- Whether the pattern matches some part of the text. -/
def isFound (pattern : Pattern) (t : Text) : Bool :=
  let subject := t.toArray
  (List.range (subject.size + 1)).any fun place => !(ends subject pattern ⟨place, []⟩).isEmpty

end Pattern

end JsonPath
