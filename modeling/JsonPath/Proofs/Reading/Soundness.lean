import JsonPath.Proofs.Reading.Checks
import JsonPath.Proofs.Reading.Repetition

/-! Whatever the readers return is spelled by the text they have read, in the order of the
rules of the grammar. The readers of nested expressions are sound by assumption until
`logical_sound` discharges it by induction on the levels of nesting.
-/

namespace JsonPath.Syntax

open Grammar Outcome

-----------------------------------------------------------------------------------------
-- Selectors and segments
-----------------------------------------------------------------------------------------

/-- A bound that is read is an integer that is spelled, or is left out. -/
theorem bound_sound {ends : List Char} {t rest : Text} {bound : Option Int}
    (h : indexOrSlice.bound ends t = .ok (bound, rest))
    : (bound = none ∧ rest = t) ∨ ∃ n, bound = some n ∧ Integer t n rest := by
  unfold indexOrSlice.bound at h
  split at h
  next =>
    obtain ⟨rfl, rfl⟩ := Prod.mk.inj (Except.ok.inj h)
    exact .inl ⟨rfl, rfl⟩
  next =>
    split at h
    next =>
      obtain ⟨rfl, rfl⟩ := Prod.mk.inj (Except.ok.inj h)
      exact .inl ⟨rfl, rfl⟩
    next =>
      simp only [bind_eq_ok] at h
      obtain ⟨⟨n, afterInteger⟩, read, result⟩ := h
      obtain ⟨rfl, rfl⟩ := Prod.mk.inj (pure_eq_ok.mp result)
      exact .inr ⟨n, rfl, integer_sound read⟩

/-- The parts of a slice after its first colon. -/
theorem slice_sound {Nested : Production Expression} {beginning t rest : Text}
    {start : Option Int} {selector : Segment}
    (hasStart : Bound beginning start (.char ':' :: t))
    (h : indexOrSlice.slice start t = .ok (selector, rest))
    : Selector Nested beginning selector rest := by
  simp only [indexOrSlice.slice, bind_eq_ok] at h
  obtain ⟨⟨stop, afterStop⟩, readStop, h⟩ := h
  dsimp only at h
  have hasStop : Bound (Text.skipBlanks t) stop
      (if stop.isSome then Text.skipBlanks afterStop else afterStop) := by
    rcases bound_sound readStop with ⟨rfl, rfl⟩ | ⟨n, rfl, spelling⟩
    · exact .absent
    · exact .integer spelling (blanks_skipBlanks _)
  generalize (if stop.isSome then Text.skipBlanks afterStop else afterStop) = middle
    at hasStop h
  split at h
  next afterColon =>
    simp only [bind_eq_ok] at h
    obtain ⟨⟨step, afterStep⟩, readStep, result⟩ := h
    obtain ⟨rfl, rfl⟩ := Prod.mk.inj (pure_eq_ok.mp result)
    refine .slice hasStart (blanks_skipBlanks t) hasStop ?_
    rcases bound_sound readStep with ⟨rfl, rfl⟩ | ⟨n, rfl, spelling⟩
    · exact .colon (blanks_skipBlanks _)
    · exact .integer (blanks_skipBlanks _) spelling
  next =>
    obtain ⟨rfl, rfl⟩ := Prod.mk.inj (pure_eq_ok.mp h)
    exact .slice hasStart (blanks_skipBlanks t) hasStop .absent

/-- An index or a slice that is read is spelled as a selector, with blanks behind it. -/
theorem indexOrSlice_sound {Nested : Production Expression}
    : IsSound indexOrSlice (Padded (Selector Nested)) := by
  intro t selector rest h
  unfold indexOrSlice at h
  split at h
  next afterColon => exact .mk .none (slice_sound .absent h) .none
  next =>
    simp only [bind_eq_ok] at h
    obtain ⟨⟨n, afterInteger⟩, read, h⟩ := h
    have spelling := integer_sound read
    have blanks := blanks_skipBlanks afterInteger
    dsimp only at h
    split at h
    next afterColon eq =>
      rw [eq] at blanks
      exact .mk .none (slice_sound (.integer spelling blanks) h) .none
    next =>
      obtain ⟨rfl, rfl⟩ := Prod.mk.inj (pure_eq_ok.mp h)
      exact .mk .none (.index spelling) blanks

section Nesting

variable {limit : Nat} {nested : Text → Except Fault (Expression × Text)}
  {Nested : Production Expression}

theorem selector_sound (sound : IsSound nested Nested)
    : IsSound (selector limit nested) (Padded (Selector Nested)) := by
  intro t found rest h
  unfold selector at h
  split at h
  next => simp [fail] at h
  next c after =>
    split at h
    next isQuote =>
      simp only [bind_eq_ok] at h
      obtain ⟨⟨name, end_⟩, read, result⟩ := h
      obtain ⟨rfl, rfl⟩ := Prod.mk.inj (pure_eq_ok.mp result)
      exact .mk .none (.name (.mk isQuote (stringRest_sound read))) .none
    split at h
    next isWildcard =>
      obtain ⟨rfl, rfl⟩ := Prod.mk.inj (Except.ok.inj h)
      subst isWildcard
      exact .mk .none .wildcard .none
    split at h
    next isFilter =>
      simp only [bind_eq_ok] at h
      obtain ⟨⟨test, end_⟩, read, _, check, result⟩ := h
      obtain ⟨rfl, rfl⟩ := Prod.mk.inj (pure_eq_ok.mp result)
      subst isFilter
      exact .mk .none
        (.filter (blanks_skipBlanks _) (sound _ _ _ read) (checkTest_eq_ok.mp check)) .none
    split at h
    next => exact indexOrSlice_sound _ _ _ h
    split at h
    next => simp [fail] at h
    next => simp [fail] at h

/-- A selector in brackets is spelled with blanks around it. -/
theorem item_sound (sound : IsSound nested Nested) {start : Text}
    : IsSound (bracketed.item limit nested start) (Padded (Selector Nested)) := by
  intro t found rest h
  unfold bracketed.item at h
  split at h
  next => simp [fail] at h
  next =>
    obtain ⟨before, spelling, after⟩ := selector_sound sound _ _ _ h
    exact .mk (blanks_trans (blanks_skipBlanks t) before) spelling after

/-- A selection that is read is spelled behind its bracket, by the soundness of lists. -/
theorem bracketed_sound (sound : IsSound nested Nested) {start t rest : Text} {found : Segment}
    (h : bracketed limit nested start t = .ok (found, rest))
    : Brackets Nested (.char '[' :: t) found rest := by
  simp only [bracketed, bind_eq_ok] at h
  obtain ⟨⟨selectors, stop⟩, read, h⟩ := h
  have blanks := blanks_skipBlanks stop
  dsimp only at h
  split at h
  next => simp [fail] at h
  next end_ eq =>
    obtain ⟨rfl, rfl⟩ := Prod.mk.inj (pure_eq_ok.mp h)
    rw [eq] at blanks
    have listed := listed_sound (f := id) (item_sound sound) read blanks
    rw [List.map_id] at listed
    exact brackets_iff.mpr ⟨_, _, rfl, listed, rfl⟩
  next => simp [fail] at h

/-- A segment that is read is spelled behind blanks, with a descent in front of it or not. -/
theorem segment_sound (sound : IsSound nested Nested) {t rest : Text} {group : List Segment}
    (h : segment limit nested t = .ok (some (group, rest)))
    : SpacedGroup Nested t group rest := by
  have blanks := blanks_skipBlanks t
  unfold segment at h
  split at h
  all_goals try cases h
  all_goals
    rename_i eq
    rw [eq] at blanks
    simp only [bind_eq_ok] at h
    obtain ⟨⟨found, end_⟩, read, result⟩ := h
    obtain ⟨rfl, rfl⟩ := Prod.mk.inj (Option.some.inj (pure_eq_ok.mp result))
  · exact .mk blanks (.bracketsDescent (bracketed_sound sound read))
  · exact .mk blanks (.dottedDescent (dotted_sound read))
  · exact .mk blanks (.dotted (dotted_sound read))
  · exact .mk blanks (.brackets (bracketed_sound sound read))

/-- The segments that are read are spelled group by group. -/
theorem segments_sound (sound : IsSound nested Nested)
    : IsSound (segments limit nested) (Segments Nested) := by
  intro t query rest h
  simp only [segments, bind_eq_ok] at h
  obtain ⟨⟨groups, end_⟩, read, result⟩ := h
  obtain ⟨rfl, rfl⟩ := Prod.mk.inj (pure_eq_ok.mp result)
  exact .mk (many_sound (fun _ _ _ => segment_sound sound) read)

-----------------------------------------------------------------------------------------
-- Expressions
-----------------------------------------------------------------------------------------

/-- An argument that is read is spelled with blanks around it. -/
theorem argument_sound (sound : IsSound nested Nested) {t rest : Text}
    {found : Expression × Text} (h : argument nested t = .ok (found, rest))
    : Padded Nested t found.1 rest := by
  simp only [argument, bind_eq_ok] at h
  obtain ⟨⟨e, end_⟩, read, result⟩ := h
  obtain ⟨rfl, rfl⟩ := Prod.mk.inj (pure_eq_ok.mp result)
  exact .mk (blanks_skipBlanks t) (sound _ _ _ read) .none

/-- The arguments that are read are spelled as a list up to the parenthesis. -/
theorem arguments_sound (sound : IsSound nested Nested) {name start t rest : Text}
    {found : List (Expression × Text)}
    (h : arguments limit nested name start t = .ok (found, rest))
    : Arguments Nested t (found.map (·.1)) rest := by
  have blanks := blanks_skipBlanks t
  unfold arguments at h
  split at h
  next after eq =>
    obtain ⟨rfl, rfl⟩ := Prod.mk.inj (pure_eq_ok.mp h)
    exact .none (eq ▸ blanks)
  next =>
    simp only [bind_eq_ok] at h
    obtain ⟨⟨arguments, stop⟩, read, h⟩ := h
    have blanksAfter := blanks_skipBlanks stop
    dsimp only at h
    split at h
    next => simp [fail] at h
    next end_ eq =>
      obtain ⟨rfl, rfl⟩ := Prod.mk.inj (pure_eq_ok.mp h)
      rw [eq] at blanksAfter
      exact .some (listed_of_blanks blanks
        (listed_sound (fun _ _ _ => argument_sound sound) read blanksAfter))
    next => simp [fail] at h

/-- A word that is read is a constant, or a call whose arguments fit. -/
theorem callOrWord_sound (sound : IsSound nested Nested)
    : IsSound (callOrWord limit nested) (Primary ShortLiteral Nested) := by
  intro t e rest h
  have invalid : callOrWord.invalid t ≠ .ok (e, rest) := by
    unfold callOrWord.invalid
    split <;> simp [fail]
  unfold callOrWord at h
  split at h
  next name after found =>
    obtain ⟨rfl, isName⟩ := word_sound found
    split at h
    next => exact absurd h invalid
    next notEmpty =>
      simp only [bind_eq_ok] at h
      obtain ⟨⟨arguments, end_⟩, read, _, check, result⟩ := h
      obtain ⟨rfl, rfl⟩ := Prod.mk.inj (pure_eq_ok.mp result)
      exact .call (isName (by simpa using notEmpty)) (arguments_sound sound read)
        (checkCall_eq_ok.mp check)
  next name after notCall found =>
    obtain ⟨rfl, -⟩ := word_sound found
    split at h
    next value isWord =>
      obtain ⟨rfl, rfl⟩ := Prod.mk.inj (Except.ok.inj h)
      simp only [words, List.lookup_cons] at isWord
      -- The word is the first of the three that it equals.
      split at isWord
      next isTrue =>
        obtain rfl := Option.some.inj isWord
        rw [eq_of_beq isTrue]
        exact .literal (.mk .true rfl)
      split at isWord
      next isFalse =>
        obtain rfl := Option.some.inj isWord
        rw [eq_of_beq isFalse]
        exact .literal (.mk .false rfl)
      split at isWord
      next isNull =>
        obtain rfl := Option.some.inj isWord
        rw [eq_of_beq isNull]
        exact .literal (.mk .null rfl)
      next => cases isWord
    next => exact absurd h invalid

/-- An operand that is read is spelled by one of the productions. -/
theorem primary_sound (sound : IsSound nested Nested)
    : IsSound (primary limit nested) (Primary ShortLiteral Nested) := by
  intro t e rest h
  unfold primary at h
  split at h
  next => simp [fail] at h
  next c after =>
    split at h
    next isCurrent =>
      simp only [bind_eq_ok] at h
      obtain ⟨⟨query, end_⟩, read, result⟩ := h
      obtain ⟨rfl, rfl⟩ := Prod.mk.inj (pure_eq_ok.mp result)
      subst isCurrent
      exact .current (segments_sound sound _ _ _ read)
    split at h
    next isRoot =>
      simp only [bind_eq_ok] at h
      obtain ⟨⟨query, end_⟩, read, result⟩ := h
      obtain ⟨rfl, rfl⟩ := Prod.mk.inj (pure_eq_ok.mp result)
      subst isRoot
      exact .root (segments_sound sound _ _ _ read)
    split at h
    next isQuote =>
      simp only [bind_eq_ok] at h
      obtain ⟨⟨content, end_⟩, read, result⟩ := h
      obtain ⟨rfl, rfl⟩ := Prod.mk.inj (pure_eq_ok.mp result)
      exact .literal (.mk (.string (.mk isQuote (stringRest_sound read))) rfl)
    split at h
    next =>
      simp only [bind_eq_ok] at h
      obtain ⟨⟨n, end_⟩, read, result⟩ := h
      obtain ⟨rfl, rfl⟩ := Prod.mk.inj (pure_eq_ok.mp result)
      exact .literal (number_sound read)
    next => exact callOrWord_sound sound _ _ _ h

/-- What is read in parentheses is spelled in them, and is a test. -/
theorem parenthesis_sound (sound : IsSound nested Nested) {start t rest : Text}
    {e : Expression} (h : parenthesis nested start t = .ok (e, rest))
    : Parentheses Nested (.char '(' :: t) e rest := by
  simp only [parenthesis, bind_eq_ok] at h
  obtain ⟨⟨found, afterFound⟩, read, _, check, h⟩ := h
  have blanks := blanks_skipBlanks afterFound
  dsimp only at h
  split at h
  next => simp [fail] at h
  next end_ eq =>
    obtain ⟨rfl, rfl⟩ := Prod.mk.inj (pure_eq_ok.mp h)
    exact .mk (blanks_skipBlanks t) (sound _ _ _ read) (checkTest_eq_ok.mp check) (eq ▸ blanks)
  next => simp [fail] at h

/-- What is negated is spelled behind the mark: in parentheses, or as an operand that is a
test.
-/
theorem negated_sound (sound : IsSound nested Nested) {t rest : Text} {e : Expression}
    (h : negated limit nested t = .ok (e, rest))
    : (∃ operand, e = .negation operand ∧ Parentheses Nested t operand rest)
      ∨ ∃ operand, e = .negation operand ∧ Primary ShortLiteral Nested t operand rest
        ∧ operand.isPrimary ∧ operand.IsTest := by
  unfold negated at h
  split at h
  next after =>
    simp only [bind_eq_ok] at h
    obtain ⟨⟨operand, end_⟩, read, h⟩ := h
    simp only [negated.checked, bind_eq_ok] at h
    obtain ⟨_, _, result⟩ := h
    obtain ⟨rfl, rfl⟩ := Prod.mk.inj (pure_eq_ok.mp result)
    exact .inl ⟨operand, rfl, parenthesis_sound sound read⟩
  next =>
    simp only [bind_eq_ok] at h
    obtain ⟨⟨operand, end_⟩, read, h⟩ := h
    dsimp only at h
    split at h
    next isPrimary =>
      simp only [negated.checked, bind_eq_ok] at h
      obtain ⟨_, check, result⟩ := h
      obtain ⟨rfl, rfl⟩ := Prod.mk.inj (pure_eq_ok.mp result)
      exact .inr ⟨operand, rfl, primary_sound sound _ _ _ read, isPrimary,
        checkTest_eq_ok.mp check⟩
    next => simp [fail] at h

/-- A comparison that is read is spelled with both sides, and a single operand as such. -/
theorem comparison_sound (sound : IsSound nested Nested)
    : IsSound (comparison limit nested) (Basic ShortLiteral Nested) := by
  intro t e rest h
  simp only [comparison, bind_eq_ok] at h
  obtain ⟨⟨left, afterLeft⟩, readLeft, h⟩ := h
  have hasLeft := primary_sound sound _ _ _ readLeft
  dsimp only at h
  split at h
  next =>
    obtain ⟨rfl, rfl⟩ := Prod.mk.inj (pure_eq_ok.mp h)
    exact .primary hasLeft
  next comparator after found =>
    have before := comparator?_sound found ▸ blanks_skipBlanks afterLeft
    simp only [bind_eq_ok] at h
    obtain ⟨⟨right, end_⟩, readRight, _, checkLeft, _, checkRight, result⟩ := h
    obtain ⟨rfl, rfl⟩ := Prod.mk.inj (pure_eq_ok.mp result)
    exact .comparison hasLeft before (blanks_skipBlanks after)
      (primary_sound sound _ _ _ readRight) (checkComparable_eq_ok.mp checkLeft)
      (checkComparable_eq_ok.mp checkRight)

theorem basic_sound (sound : IsSound nested Nested)
    : IsSound (basic limit nested) (Basic ShortLiteral Nested) := by
  intro t e rest h
  unfold basic at h
  split at h
  next => exact comparison_sound sound _ _ _ h
  next after _ =>
    have blanks := blanks_skipBlanks after
    rcases negated_sound sound h with
      ⟨operand, rfl, spelling⟩ | ⟨operand, rfl, spelling, isPrimary, isTest⟩
    · exact .negatedParentheses blanks spelling
    · exact .negatedPrimary blanks spelling isPrimary isTest
  next => exact .parentheses (parenthesis_sound sound h)
  next => exact comparison_sound sound _ _ _ h

/-- Operands are read as they are joined, and have truth values when there are several. -/
theorem operands_sound {operator : Char} {operand : Text → Except Fault (Expression × Text)}
    {Operand : Production Expression} (sound : IsSound operand Operand) {t rest : Text}
    {es : List Expression} (h : operands limit operator operand t = .ok (es, rest))
    : Joined [.char operator, .char operator] Operand t es rest
      ∧ (es.length ≠ 1 → ∀ e ∈ es, e.IsTest) := by
  simp only [operands, bind_eq_ok] at h
  obtain ⟨⟨found, end_⟩, read, h⟩ := h
  have joined := joined_sound sound read
  dsimp only at h
  split at h
  next isOne =>
    obtain ⟨rfl, rfl⟩ := Prod.mk.inj (pure_eq_ok.mp h)
    exact ⟨joined, fun several => absurd isOne several⟩
  next =>
    simp only [bind_eq_ok] at h
    obtain ⟨_, check, result⟩ := h
    obtain ⟨rfl, rfl⟩ := Prod.mk.inj (pure_eq_ok.mp result)
    exact ⟨joined, fun _ => forM_checkTest_eq_ok.mp check⟩

/-- A conjunction that is read is spelled as operands with `&&` between them. -/
theorem conjunction_sound (sound : IsSound nested Nested)
    : IsSound (conjunction limit nested) (Conjunction ShortLiteral Nested) := by
  intro t e rest h
  simp only [conjunction, bind_eq_ok] at h
  obtain ⟨⟨found, end_⟩, read, result⟩ := h
  obtain ⟨rfl, rfl⟩ := Prod.mk.inj (pure_eq_ok.mp result)
  obtain ⟨joined, areTests⟩ := operands_sound (basic_sound sound) read
  exact conjunction_iff.mpr ⟨_, joined, areTests, rfl⟩

/-- A disjunction that is read is spelled as conjunctions with `||` between them. -/
theorem disjunction_sound (sound : IsSound nested Nested)
    : IsSound (disjunction limit nested) (Disjunction ShortLiteral Nested) := by
  intro t e rest h
  simp only [disjunction, bind_eq_ok] at h
  obtain ⟨⟨found, end_⟩, read, result⟩ := h
  obtain ⟨rfl, rfl⟩ := Prod.mk.inj (pure_eq_ok.mp result)
  obtain ⟨joined, areTests⟩ := operands_sound (conjunction_sound sound) read
  exact disjunction_iff.mpr ⟨_, joined, areTests, rfl⟩

end Nesting

/-- Logical expressions are read soundly at every level of nesting, by induction on it. -/
theorem logical_sound (limit depth : Nat)
    : IsSound (logical limit depth) (Logical ShortLiteral depth) := by
  induction depth with
  | zero =>
      intro t e rest h
      simp [logical, fail] at h
  | succ depth ih => exact disjunction_sound ih

-----------------------------------------------------------------------------------------
-- Whole texts
-----------------------------------------------------------------------------------------

/-- A query that is read is one that the whole text spells, with short literals. -/
theorem query_sound {depth : Nat} {t : Text} {found : Query} (h : query depth t = .ok found)
    : IsQuery ShortLiteral depth t found := by
  unfold query at h
  split at h
  next => simp [fail] at h
  next rest =>
    simp only [bind_eq_ok] at h
    obtain ⟨⟨read, end_⟩, readSegments, h⟩ := h
    have spelling := segments_sound (logical_sound _ depth) _ _ _ readSegments
    dsimp only at h
    split at h
    next =>
      obtain rfl := pure_eq_ok.mp h
      exact .mk spelling
    next =>
      split at h
      next => simp [fail] at h
      next => simp [fail] at h
  next => simp [fail] at h

/-- The body of a filter that is read is a test that is spelled up to blanks at the end. -/
theorem filterFrom_sound {limit depth : Nat} {start : Text} {found : Expression}
    (h : filterFrom limit depth start = .ok found)
    : ∃ stop, Logical ShortLiteral depth start found stop ∧ found.IsTest ∧ Blanks stop [] := by
  unfold filterFrom at h
  split at h
  next => simp [fail] at h
  next =>
    simp only [bind_eq_ok] at h
    obtain ⟨⟨e, stop⟩, read, _, check, h⟩ := h
    have after := blanks_skipBlanks stop
    dsimp only at h
    split at h
    next eq =>
      obtain rfl := pure_eq_ok.mp h
      rw [eq] at after
      exact ⟨stop, logical_sound _ _ _ _ _ read, checkTest_eq_ok.mp check, after⟩
    next => simp [fail] at h

/-- A filter that is read is one that the whole text spells, with short literals. -/
theorem filter_sound {depth : Nat} {t : Text} {found : Expression}
    (h : filter depth t = .ok found)
    : IsFilter ShortLiteral depth t found := by
  have blanks := blanks_skipBlanks t
  unfold filter at h
  split at h
  next mark marked =>
    rw [marked] at blanks
    obtain ⟨stop, spelling, isTest, after⟩ := filterFrom_sound h
    exact .marked blanks (blanks_skipBlanks mark) spelling isTest after
  next =>
    obtain ⟨stop, spelling, isTest, after⟩ := filterFrom_sound h
    exact .plain blanks spelling isTest after

end JsonPath.Syntax
