import JsonPath.Proofs.Evaluation.Segments
import JsonPath.Proofs.Grammar.Enclosure
import JsonPath.Proofs.Parsing
import JsonPath.Session

/-! A filter expression alone and the query that filters the children of a document with it.
Both are spelled alike, and the query finds the children for which the expression evaluates
to true.
-/

namespace JsonPath

section Lists

variable {α ε : Type} {test : α → Except ε Bool} {items kept : List α}

/-- When all tests have results, the items whose test is true are kept. -/
theorem keep_eq_ok_iff
    : keep test items = .ok kept
      ↔ (∀ item ∈ items, ∃ isKept, test item = .ok isKept)
        ∧ kept = items.filter fun item => (test item).toOption = some true := by
  induction items generalizing kept with
  | nil => simp [keep, eq_comm]
  | cons item items ih =>
      simp only [keep, Outcome.bind_eq_ok, Outcome.pure_eq_ok, List.forall_mem_cons, ih]
      constructor
      · rintro ⟨isKept, first, others, ⟨all, rfl⟩, rfl⟩
        refine ⟨⟨⟨isKept, first⟩, all⟩, ?_⟩
        cases isKept <;> simp [first, Except.toOption]
      · rintro ⟨⟨⟨isKept, first⟩, all⟩, rfl⟩
        refine ⟨isKept, first, _, ⟨all, rfl⟩, ?_⟩
        cases isKept <;> simp [first, Except.toOption]

/-- Keeping fails when the test of some item does. -/
theorem exists_error_keep_iff
    : (∃ error, keep test items = .error error)
      ↔ ∃ item ∈ items, ∃ error, test item = .error error := by
  constructor
  · rintro ⟨error, failed⟩
    by_contra none
    have all : ∀ item ∈ items, ∃ isKept, test item = .ok isKept := by
      intro item member
      cases result : test item with
      | ok isKept => exact ⟨isKept, rfl⟩
      | error error => exact absurd ⟨item, member, error, result⟩ none
    rw [keep_eq_ok_iff.mpr ⟨all, rfl⟩] at failed
    cases failed
  · rintro ⟨item, member, error, failed⟩
    cases result : keep test items with
    | error error => exact ⟨error, rfl⟩
    | ok kept =>
        obtain ⟨isKept, hasResult⟩ := (keep_eq_ok_iff.mp result).1 item member
        rw [hasResult] at failed
        cases failed

end Lists

/-- A query with a single filter tests the children of the document. -/
theorem Query.find_filter (e : Expression) (document : Value) (registry : Registry)
    : Query.find [.filter e] document registry
      = keep (fun child => e.holds (.of document registry) child.value)
        (Node.children ⟨document, []⟩) := by
  have none (nodes : List Node) : apply (.of document registry) [] nodes = .ok nodes := by
    rw [apply]
  rw [Query.find, apply_cons rfl, collect, collect, Segment.select]
  cases keep (fun child => e.holds (.of document registry) child.value)
      (Node.children ⟨document, []⟩) with
  | error _ => rfl
  | ok kept =>
      simp only [Outcome.ok_bind]
      exact (none _).trans (congrArg _ (List.append_nil kept))

namespace Expression

variable {depth : Nat} {t : Text} {e : Expression}

/-- A text without a question mark in front is a filter alone exactly if it is the same
filter between brackets behind a question mark.
-/
theorem parseWithin_iff_brackets (unmarked : ∀ mark, Text.skipBlanks t ≠ .char '?' :: mark)
    : Expression.parseWithin depth t = .ok e
      ↔ Query.parseWithin depth ("$[?" ++ t ++ "]") = .ok [.filter e] := by
  have text : ("$[?" : Text) ++ t ++ ("]" : Text)
      = .char '$' :: .char '[' :: .char '?' :: (t ++ [.char ']']) := rfl
  have literals : Query.allLiterals Value.isWritable [.filter e]
      = e.allLiterals Value.isWritable := by
    simp [Query.allLiterals, Segment.allLiterals]
  rw [parseWithin_eq_ok_iff, text, Query.parseWithin_eq_ok_iff,
    Grammar.isFilter_iff_isPaddedTest unmarked, Grammar.isQuery_iff_isPaddedTest, literals]

/-- A text without a question mark in front is a filter alone exactly if it is the same
filter between brackets, at any bound on the nesting of expressions. The query with this
filter finds the children of a document for which the expression evaluates to true, in
order, and fails when the evaluation fails for some child.
-/
theorem find_brackets (unmarked : ∀ mark, Text.skipBlanks t ≠ .char '?' :: mark)
    : (Expression.parseWithin depth t = .ok e
        ↔ Query.parseWithin depth ("$[?" ++ t ++ "]") = .ok [.filter e])
      ∧ (Expression.parseWithin depth t = .ok e
        → ∀ document,
          (∀ nodes,
            Query.find [.filter e] document [] = .ok nodes
            ↔ (∀ child ∈ Node.children ⟨document, []⟩,
                ∃ isTrue, e.evaluate child.value document = .ok isTrue)
              ∧ nodes = (Node.children ⟨document, []⟩).filter fun child =>
                (e.evaluate child.value document).toOption = some true)
          ∧ ((∃ error, Query.find [.filter e] document [] = .error error)
            ↔ ∃ child ∈ Node.children ⟨document, []⟩,
              ∃ error, e.evaluate child.value document = .error error)) := by
  refine ⟨parseWithin_iff_brackets unmarked, fun _ document => ?_⟩
  rw [Query.find_filter]
  exact ⟨fun nodes => keep_eq_ok_iff, exists_error_keep_iff⟩

/-- The filter `@.a` keeps the elements that have a member `a`. -/
theorem find_brackets_member
    : (∀ mark, Text.skipBlanks "@.a" ≠ .char '?' :: mark)
      ∧ Expression.parseWithin 1 "@.a" = .ok (.current [.key [.char 'a']])
      ∧ Query.parseWithin 1 "$[?@.a]" = .ok [.filter (.current [.key [.char 'a']])]
      ∧ Query.find [.filter (.current [.key [.char 'a']])]
          (.array [.null, .object [([.char 'a'], .null)]]) []
        = .ok [⟨.object [([.char 'a'], .null)], [.position 1]⟩] := by
  have unmarked : ∀ mark, Text.skipBlanks "@.a" ≠ .char '?' :: mark := nofun
  have alone : Expression.parseWithin 1 "@.a" = .ok (.current [.key [.char 'a']]) := rfl
  obtain ⟨parses, finds⟩ := find_brackets unmarked
  refine ⟨unmarked, alone, parses.mp alone, (finds alone _).1 _ |>.mpr ⟨?_, rfl⟩⟩
  intro child member
  rcases List.mem_cons.mp member with rfl | member
  · exact ⟨false, rfl⟩
  · obtain rfl := List.mem_singleton.mp member
    exact ⟨true, rfl⟩

end Expression

end JsonPath
