import JsonPath.Proofs.Grammar.Locality
import JsonPath.Proofs.Reading.Basic

/-! Filters alone and between brackets. In both places a filter is a word of the grammar with
blanks around it, and since the grammar is local the word does not depend on what stands
behind it: the end of the text or the closing bracket.
-/

namespace JsonPath.Grammar

open Syntax

/-- The whole text is a word for an expression that can have a truth value, with blanks on
both sides.
-/
inductive IsPaddedTest (depth : Nat) : Text → Expression → Prop
  | mk {before word after e} (areBlanks : ∀ rest, Blanks (before ++ rest) rest)
    (spells : ∀ rest, Logical Literal depth (word ++ rest) e rest)
    (areBlanks' : ∀ rest, Blanks (after ++ rest) rest) (isTest : e.IsTest)
    : IsPaddedTest depth (before ++ (word ++ after)) e

variable {depth : Nat} {t : Text} {e : Expression}

/-- What stands without operators around it is a logical expression. -/
theorem logical_of_basic {Literal : Production Value} {rest : Text}
    (h : Basic Literal (Logical Literal depth) t e rest)
    : Logical Literal (depth + 1) t e rest :=
  Disjunction.one (.one h)

/-- A text that does not start with a question mark is a filter exactly if it is a padded
test.
-/
theorem isFilter_iff_isPaddedTest (unmarked : ∀ mark, Text.skipBlanks t ≠ .char '?' :: mark)
    : IsFilter Literal depth t e ↔ IsPaddedTest depth t e := by
  constructor
  · intro h
    cases h with
    | plain before spelling isTest after =>
        obtain ⟨blanks, rfl, areBlanks⟩ := isLocal_blanks before
        obtain ⟨word, rfl, spells⟩ := isLocal_logical depth e spelling
        obtain ⟨blanks', rfl, areBlanks'⟩ := isLocal_blanks after
        rw [List.append_nil]
        exact .mk areBlanks spells areBlanks' isTest
    | marked before _ _ _ _ =>
        exact absurd (skipBlanks_eq before (isSolid_cons rfl)) (unmarked _)
  · rintro ⟨areBlanks, spells, areBlanks', isTest⟩
    rename_i after
    have blanks := areBlanks' []
    rw [List.append_nil] at blanks
    exact .plain (areBlanks _) (spells after) isTest blanks

/-- Between a question mark and a closing bracket stands a padded test. -/
theorem isPaddedTest_of_selector {stop : Text}
    (h : Selector (Logical Literal depth) (.char '?' :: (t ++ [.char ']'])) (.filter e) stop)
    (closed : Blanks stop [.char ']'])
    : IsPaddedTest depth t e := by
  cases h with
  | filter blanks spelling isTest =>
      obtain ⟨before, text, areBlanks⟩ := isLocal_blanks blanks
      obtain ⟨word, rfl, spells⟩ := isLocal_logical depth e spelling
      obtain ⟨after, rfl, areBlanks'⟩ := isLocal_blanks closed
      obtain rfl : t = before ++ (word ++ after) := by
        simpa only [← List.append_assoc, List.append_cancel_right_eq] using text
      exact .mk areBlanks spells areBlanks' isTest

/-- A list of one item is the item with blanks around it. -/
theorem listed_singleton {α : Type} {Item : Production α} {item : α} {rest : Text}
    (h : Listed Item t [item] rest)
    : ∃ start stop, Blanks t start ∧ Item start item stop ∧ Blanks stop rest := by
  cases h with
  | one before spelling after => exact ⟨_, _, before, spelling, after⟩
  | more _ _ _ others => cases others

/-- A group has at least one segment. -/
theorem ne_nil_of_spacedGroup {Nested : Production Expression} {rest : Text}
    {group : List Segment} (h : SpacedGroup Nested t group rest)
    : group ≠ [] := by
  obtain ⟨_, spelling⟩ := h
  cases spelling <;> simp

/-- A single segment is spelled by a single group. -/
theorem spacedGroup_of_segments {Nested : Production Expression} {segment : Segment}
    (h : Segments Nested t [segment] [])
    : SpacedGroup Nested t [segment] [] := by
  generalize query_eq : [segment] = query at h
  obtain ⟨spelling⟩ := h
  cases spelling with
  | none => cases query_eq
  | @more _ group _ groups _ first others =>
      rw [List.flatten_cons, eq_comm, List.append_eq_singleton_iff] at query_eq
      rcases query_eq with ⟨empty, -⟩ | ⟨rfl, noOthers⟩
      · exact absurd empty (ne_nil_of_spacedGroup first)
      · cases others with
        | none => exact first
        | more second _ =>
            have empty := (List.append_eq_nil_iff.mp noOthers).1
            exact absurd empty (ne_nil_of_spacedGroup second)

/-- A segment that starts with a bracket is in brackets. -/
theorem brackets_of_spacedGroup {Nested : Production Expression} {segment : Segment}
    {rest : Text} (h : SpacedGroup Nested (.char '[' :: t) [segment] rest)
    : Brackets Nested (.char '[' :: t) segment rest := by
  obtain ⟨blanks, spelling⟩ := h
  cases blanks with
  | more blank _ => cases blank
  | none =>
      cases spelling with
      | brackets spelling => exact spelling

/-- A text in brackets that spells a single filter has no other selectors. -/
theorem selector_of_brackets {Nested : Production Expression} {rest : Text}
    (h : Brackets Nested (.char '[' :: .char '?' :: t) (.filter e) rest)
    : ∃ stop,
      Selector Nested (.char '?' :: t) (.filter e) stop ∧ Blanks stop (.char ']' :: rest) := by
  cases h with
  | one listed =>
      obtain ⟨start, stop, before, spelling, after⟩ := listed_singleton listed
      cases before with
      | more blank _ => cases blank
      | none => exact ⟨stop, spelling, after⟩

/-- A text between `$[?` and the closing bracket is a query of this filter only exactly if it
is a padded test.
-/
theorem isQuery_iff_isPaddedTest
    : IsQuery Literal depth (.char '$' :: .char '[' :: .char '?' :: (t ++ [.char ']']))
        [.filter e]
      ↔ IsPaddedTest depth t e := by
  constructor
  · rintro ⟨spelling⟩
    have brackets := brackets_of_spacedGroup (spacedGroup_of_segments spelling)
    obtain ⟨stop, selector, closed⟩ := selector_of_brackets brackets
    exact isPaddedTest_of_selector selector closed
  · rintro ⟨areBlanks, spells, areBlanks', isTest⟩
    rename_i before word after
    have selector : Selector (Logical Literal depth)
        (.char '?' :: (before ++ (word ++ (after ++ [.char ']'])))) (.filter e)
        (after ++ [.char ']']) :=
      .filter (areBlanks _) (spells _) isTest
    have brackets := Brackets.one (.one .none selector (areBlanks' [.char ']']))
    simp only [List.append_assoc]
    exact .mk (.mk (.more (.mk .none (.brackets brackets)) .none))

end JsonPath.Grammar
