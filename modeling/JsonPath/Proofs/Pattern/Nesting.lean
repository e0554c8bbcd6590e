import JsonPath.Text.CodePoint

/-! How deep groups are nested in the text of a pattern. Parentheses are counted on the text
alone, unless they are escaped or stand in a class or a comment. A reader that goes on from one
spot of a text to another one never finds more open groups than were ahead of it before.
-/

namespace JsonPath.Pattern

-----------------------------------------------------------------------------------------
-- Regions
-----------------------------------------------------------------------------------------

/-- What a place in the text of a pattern belongs to. -/
inductive Region where
  | outside
  /-- The start of a class, where a closing bracket stands for itself. -/
  | classStart
  | inClass
  /-- A comment, or what a condition depends on, up to a closing parenthesis. -/
  | aside

/-- What the place behind a character belongs to that has no other meaning. -/
def Region.next : Region → Region
  | classStart => inClass
  | region => region

@[simp] theorem Region.next_next (region : Region) : region.next.next = region.next := by
  cases region <;> rfl

/-- The most groups that are open at once in a text, when the given number of groups has been
opened in front of it.
-/
def deepest : Region → Nat → Text → Nat
  | _, opened, [] => opened
  | _, opened, [.char '\\'] => opened
  | region, opened, .char '\\' :: _ :: rest => deepest region.next opened rest
  | .outside, opened, .char '(' :: .char '?' :: .char '#' :: rest => deepest .aside opened rest
  | .outside, opened, .char '(' :: .char '?' :: .char '(' :: rest =>
    deepest .aside (opened + 1) rest
  | .outside, opened, .char '(' :: rest => deepest .outside (opened + 1) rest
  | .outside, opened, .char ')' :: rest => max opened (deepest .outside (opened - 1) rest)
  | .outside, opened, .char '[' :: .char '^' :: rest => deepest .classStart opened rest
  | .outside, opened, .char '[' :: rest => deepest .classStart opened rest
  | .inClass, opened, .char ']' :: rest => deepest .outside opened rest
  | .aside, opened, .char ')' :: rest => deepest .outside opened rest
  | region, opened, _ :: rest => deepest region.next opened rest

/-- The marks that tell where groups and classes start and end. -/
def structuralMarks : List CodePoint :=
  ['\\', '(', ')', '[', ']'].map .char

variable {region : Region} {opened : Nat} {c : CodePoint} {t rest : Text}

/-- What has been opened counts, wherever the text goes. -/
theorem opened_le_deepest (region : Region) (opened : Nat) (t : Text)
    : opened ≤ deepest region opened t := by
  fun_induction deepest region opened t
  all_goals omega

/-- Characters that are no marks open and close nothing. -/
theorem deepest_of_notMem (noMark : c ∉ structuralMarks)
    : deepest region opened (c :: rest) = deepest region.next opened rest := by
  simp only [structuralMarks, List.map_cons, List.map_nil, List.mem_cons, List.not_mem_nil,
    or_false, not_or] at noMark
  rw [deepest]
  all_goals simp_all

/-- Outside of classes a closing bracket opens and closes nothing either. -/
theorem deepest_outside
    (noMark : c ≠ .char '\\' ∧ c ≠ .char '(' ∧ c ≠ .char ')' ∧ c ≠ .char '[')
    : deepest .outside opened (c :: rest) = deepest .outside opened rest := by
  rw [deepest, Region.next]
  all_goals simp_all

/-- In a remark only the closing parenthesis and escapes matter. -/
theorem deepest_aside (noBackslash : c ≠ .char '\\') (noClosing : c ≠ .char ')')
    : deepest .aside opened (c :: rest) = deepest .aside opened rest := by
  rw [deepest, Region.next]
  all_goals simp_all

-----------------------------------------------------------------------------------------
-- Spots
-----------------------------------------------------------------------------------------

/-- A place in the text of a pattern, with the text from there on. -/
structure Spot where
  region : Region
  text : Text

/-- The inner spot is behind the outer one and some groups deeper: with these groups open, no
more groups are open behind it than behind the outer one.
-/
structure Spot.Inside (groups : Nat) (inner outer : Spot) : Prop where
  isSuffix : inner.text <:+ outer.text
  le
    : ∀ opened,
        deepest inner.region (opened + groups) inner.text
        ≤ deepest outer.region opened outer.text

namespace Spot.Inside

variable {groups groups' : Nat} {inner middle outer : Spot} {w : Text}

theorem refl (spot : Spot) : Inside 0 spot spot :=
  ⟨List.suffix_rfl, fun _ => Nat.le_refl _⟩

/-- Spots behind spots are behind all that these are behind, and as deep as both say. -/
theorem trans (h : Inside groups inner middle) (h' : Inside groups' middle outer)
    : Inside (groups' + groups) inner outer where
  isSuffix := h.isSuffix.trans h'.isSuffix
  le opened := by
    rw [← Nat.add_assoc]
    exact Nat.le_trans (h.le (opened + groups')) (h'.le opened)

/-- What is passed opens no group when the same groups are open at once without it. -/
theorem of_same {region' : Region} (isSuffix : rest <:+ t)
    (same : ∀ opened, deepest region opened t = deepest region' opened rest)
    : Inside 0 ⟨region', rest⟩ ⟨region, t⟩ :=
  ⟨isSuffix, fun opened => Nat.le_of_eq (same opened).symm⟩

/-- What is passed opens one group. -/
theorem of_opened {region' : Region} (isSuffix : rest <:+ t)
    (opens : ∀ opened, deepest region opened t = deepest region' (opened + 1) rest)
    : Inside 1 ⟨region', rest⟩ ⟨region, t⟩ :=
  ⟨isSuffix, fun opened => Nat.le_of_eq (opens opened).symm⟩

/-- At the end of the text no more than the open groups are open. -/
theorem atEnd (region : Region) (outer : Spot) : Inside 0 ⟨region, []⟩ outer where
  isSuffix := List.nil_suffix
  le opened := by
    rw [deepest]
    exact opened_le_deepest _ _ _

/-- What is behind characters that are no marks, by induction on these. -/
theorem append (noMarks : ∀ c ∈ w, c ∉ structuralMarks) (region : Region) (t : Text)
    : Inside 0 ⟨region.next, t⟩ ⟨region.next, w ++ t⟩ := by
  induction w with
  | nil => exact refl _
  | cons c w ih =>
      obtain ⟨noMark, noMarks⟩ := List.forall_mem_cons.mp noMarks
      refine (ih noMarks).trans (of_same (List.suffix_cons c _) fun opened => ?_)
      rw [List.cons_append, deepest_of_notMem noMark, Region.next_next]

theorem cons (noMark : c ∉ structuralMarks) (region : Region) (t : Text)
    : Inside 0 ⟨region.next, t⟩ ⟨region, c :: t⟩ :=
  of_same (List.suffix_cons c t) fun _ => deepest_of_notMem noMark

/-- Outside of classes a closing bracket stands for itself. -/
theorem plain (noMark : c ∉ ['\\', '(', ')', '['].map .char) (t : Text)
    : Inside 0 ⟨.outside, t⟩ ⟨.outside, c :: t⟩ := by
  simp only [List.map_cons, List.map_nil, List.mem_cons, List.not_mem_nil, or_false,
    not_or] at noMark
  exact of_same (List.suffix_cons c t) fun _ => deepest_outside noMark

/-- An escape keeps the region, whatever character follows the backslash. -/
theorem escape (region : Region) (c : CodePoint) (t : Text)
    : Inside 0 ⟨region.next, t⟩ ⟨region, .char '\\' :: c :: t⟩ :=
  of_same (List.suffix_append [_, c] t) fun _ => by rw [deepest]

/-- A bracket starts a class on the same level. -/
theorem charClass (noCaret : ∀ rest, t ≠ .char '^' :: rest)
    : Inside 0 ⟨.classStart, t⟩ ⟨.outside, .char '[' :: t⟩ :=
  of_same (List.suffix_cons _ t) fun _ => by rw [deepest]; exact noCaret

theorem negatedClass (t : Text)
    : Inside 0 ⟨.classStart, t⟩ ⟨.outside, .char '[' :: .char '^' :: t⟩ :=
  of_same (List.suffix_append [_, _] t) fun _ => by rw [deepest]

theorem classEnd (t : Text) : Inside 0 ⟨.outside, t⟩ ⟨.inClass, .char ']' :: t⟩ :=
  of_same (List.suffix_cons _ t) fun _ => by rw [deepest]

/-- A parenthesis opens a group unless it starts a comment or a condition. -/
theorem group (noComment : ∀ rest, t ≠ .char '?' :: .char '#' :: rest)
    (noCondition : ∀ rest, t ≠ .char '?' :: .char '(' :: rest)
    : Inside 1 ⟨.outside, t⟩ ⟨.outside, .char '(' :: t⟩ := by
  refine of_opened (List.suffix_cons _ t) fun opened => ?_
  rw [deepest]
  · exact noComment
  · exact noCondition

/-- A condition opens a group and starts with a remark. -/
theorem condition (t : Text)
    : Inside 1 ⟨.aside, t⟩ ⟨.outside, .char '(' :: .char '?' :: .char '(' :: t⟩ :=
  of_opened (List.suffix_append [_, _, _] t) fun _ => by rw [deepest]

/-- A comment is a remark on the same level. -/
theorem comment (t : Text)
    : Inside 0 ⟨.aside, t⟩ ⟨.outside, .char '(' :: .char '?' :: .char '#' :: t⟩ :=
  of_same (List.suffix_append [_, _, _] t) fun _ => by rw [deepest]

/-- What is behind a remark of characters that neither close it nor escape others. -/
theorem aside (noMarks : ∀ c ∈ w, c ≠ .char '\\' ∧ c ≠ .char ')') (t : Text)
    : Inside 0 ⟨.outside, t⟩ ⟨.aside, w ++ .char ')' :: t⟩ := by
  induction w with
  | nil => exact of_same (List.suffix_cons _ t) fun _ => by rw [List.nil_append, deepest]
  | cons c w ih =>
      obtain ⟨⟨noBackslash, noClosing⟩, noMarks⟩ := List.forall_mem_cons.mp noMarks
      exact (ih noMarks).trans
        (of_same (List.suffix_cons c _) fun _ => deepest_aside noBackslash noClosing)

/-- A closing parenthesis leaves the group. -/
theorem close (h : Inside (groups + 1) ⟨.outside, .char ')' :: rest⟩ outer)
    : Inside groups ⟨.outside, rest⟩ outer where
  isSuffix := (List.suffix_cons _ rest).trans h.isSuffix
  le opened := by
    refine Nat.le_trans ?_ (h.le opened)
    rw [deepest]
    exact Nat.le_max_right _ _

end Spot.Inside

/-- How deep groups are nested in the text of a pattern. -/
def nesting (t : Text) : Nat :=
  deepest .outside 0 t

example : nesting ("(a[(](b\\())(c(?#((d))" : Text) = 2 := by decide

end JsonPath.Pattern
