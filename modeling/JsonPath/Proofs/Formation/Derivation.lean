import JsonPath.Proofs.Formation.Basic
import JsonPath.Proofs.Reading.Numbers

/-! What the grammar derives is formed, in the order of the rules of the grammar. The
production of nested expressions derives formed ones by assumption until
`formed_of_logical` discharges it by induction on the levels of nesting.
-/

namespace JsonPath.Formation

open Grammar (Production Listed Joined Repeated)

/-- Integers of the grammar are in range. -/
theorem inRange_of_integer {t rest : Text} {n : Int} (h : Grammar.Integer t n rest)
    : n.natAbs ≤ maxInteger := by
  obtain ⟨_, _, _, inRange⟩ := h
  rwa [Syntax.natAbs_toInt]

/-- What holds of each spelled item holds of all items of a list, which are some. -/
theorem forall_of_listed {α : Type} {Item : Production α} {P : α → Prop}
    (holds : ∀ t a rest, Item t a rest → P a) {t rest : Text} {items : List α}
    (h : Listed Item t items rest)
    : items ≠ [] ∧ ∀ a ∈ items, P a := by
  induction h with
  | one _ spelling _ => exact ⟨by simp, by simpa using holds _ _ _ spelling⟩
  | more _ spelling _ _ ih =>
      refine ⟨by simp, fun a member => ?_⟩
      rcases List.mem_cons.mp member with rfl | member
      · exact holds _ _ _ spelling
      · exact ih.2 a member

/-- What holds of each spelled item holds of all joined items, which are some. -/
theorem forall_of_joined {α : Type} {operator : Text} {Item : Production α} {P : α → Prop}
    (holds : ∀ t a rest, Item t a rest → P a) {t rest : Text} {items : List α}
    (h : Joined operator Item t items rest)
    : items ≠ [] ∧ ∀ a ∈ items, P a := by
  induction h with
  | one spelling => exact ⟨by simp, by simpa using holds _ _ _ spelling⟩
  | more first _ _ _ ih =>
      refine ⟨by simp, fun a member => ?_⟩
      rcases List.mem_cons.mp member with rfl | member
      · exact holds _ _ _ first
      · exact ih.2 a member

section Nesting

variable {Nested : Production Expression} {Formed : Expression → Prop}
  (nested : ∀ t e rest, Nested t e rest → Formed e)

-----------------------------------------------------------------------------------------
-- Segments
-----------------------------------------------------------------------------------------

theorem inRange_of_bound {t rest : Text} {bound : Option Int}
    (h : Grammar.Bound t bound rest)
    : ∀ n ∈ bound, n.natAbs ≤ maxInteger := by
  intro n member
  cases h with
  | absent => cases member
  | integer spelling _ =>
      obtain rfl := Option.some.inj member
      exact inRange_of_integer spelling

/-- Steps of the grammar are in range, also when they are left out. -/
theorem inRange_of_sliceStep {t rest : Text} {step : Int}
    (h : Grammar.SliceStep t step rest)
    : step.natAbs ≤ maxInteger := by
  cases h with
  | absent => decide
  | colon _ => decide
  | integer _ spelling => exact inRange_of_integer spelling

/-- Selectors behind a dot are well-formed selections. -/
theorem selection_of_dotted {t rest : Text} {selector : Segment}
    (h : Grammar.Dotted t selector rest)
    : Selection Formed selector := by
  cases h with
  | wildcard => exact .selector .wildcard
  | name _ => exact .selector .key

include nested

/-- Selectors of the grammar are well-formed, by cases on the production. -/
theorem selector_of_derivation {t rest : Text} {s : Segment}
    (h : Grammar.Selector Nested t s rest)
    : Selector Formed s := by
  cases h with
  | name _ => exact .key
  | wildcard => exact .wildcard
  | index spelling => exact .index (inRange_of_integer spelling)
  | slice hasStart _ hasStop hasStep =>
      exact .slice (inRange_of_bound hasStart) (inRange_of_bound hasStop)
        (inRange_of_sliceStep hasStep)
  | filter _ spelling isTest => exact .filter (nested _ _ _ spelling) isTest

/-- Selections in brackets are well-formed, as lists of selectors. -/
theorem selection_of_brackets {t rest : Text} {selector : Segment}
    (h : Grammar.Brackets Nested t selector rest)
    : Selection Formed selector := by
  cases h with
  | one spelling =>
      obtain ⟨_, formed⟩ :=
        forall_of_listed (fun _ _ _ h => selector_of_derivation nested h) spelling
      exact .selector (formed selector (by simp))
  | several spelling =>
      obtain ⟨_, formed⟩ :=
        forall_of_listed (fun _ _ _ h => selector_of_derivation nested h) spelling
      exact .union formed

/-- The segments of a group in front of others, which a descent does not end. -/
theorem segments_of_spacedGroup {t rest : Text} {group segments : List Segment}
    (h : Grammar.SpacedGroup Nested t group rest) (others : Segments Formed segments)
    : Segments Formed (group ++ segments) := by
  obtain ⟨_, spelling⟩ := h
  cases spelling with
  | dotted spelling => exact .child (selection_of_dotted spelling) others
  | brackets spelling => exact .child (selection_of_brackets nested spelling) others
  | dottedDescent spelling => exact .descent (selection_of_dotted spelling) others
  | bracketsDescent spelling => exact .descent (selection_of_brackets nested spelling) others

/-- Segments of the grammar are well-formed, group by group. -/
theorem segments_of_derivation {t rest : Text} {query : Query}
    (h : Grammar.Segments Nested t query rest)
    : Segments Formed query := by
  obtain ⟨spelling⟩ := h
  induction spelling with
  | none => exact .nil
  | more first _ ih => exact segments_of_spacedGroup nested first ih

-----------------------------------------------------------------------------------------
-- Expressions
-----------------------------------------------------------------------------------------

/-- Operands of the grammar are well-formed, by cases on the production. -/
theorem primary_of_derivation {t rest : Text} {e : Expression}
    (h : Grammar.Primary Grammar.ShortLiteral Nested t e rest)
    : Primary Formed e := by
  cases h with
  | literal spelling => exact .literal (Syntax.isLiteral_of_shortLiteral spelling)
  | current spelling => exact .current (segments_of_derivation nested spelling)
  | root spelling => exact .root (segments_of_derivation nested spelling)
  | call isName spelling fitCall =>
      refine .call isName ?_ fitCall
      cases spelling with
      | none _ => simp
      | some spelling => exact (forall_of_listed nested spelling).2

variable (grows : ∀ e, Formed e → Disjunction Formed e)

include grows

/-- An operand of a conjunction is formed without delimiters, or between parentheses. -/
theorem basic_of_derivation {t rest : Text} {e : Expression}
    (h : Grammar.Basic Grammar.ShortLiteral Nested t e rest)
    : Basic Formed e ∨ Formed e := by
  cases h with
  | @negatedParentheses _ _ e _ _ spelling =>
      obtain ⟨_, spelling, isTest, _⟩ := spelling
      have formed := nested _ _ _ spelling
      cases isPrimary : e.isPrimary with
      | true =>
          exact .inl (.negatedPrimary (.of_disjunction (grows _ formed) isPrimary) isPrimary isTest)
      | false => exact .inl (.negated formed isPrimary isTest)
  | negatedPrimary _ spelling isPrimary isTest =>
      exact .inl (.negatedPrimary (primary_of_derivation nested spelling) isPrimary isTest)
  | parentheses spelling =>
      obtain ⟨_, spelling, _, _⟩ := spelling
      exact .inr (nested _ _ _ spelling)
  | primary spelling => exact .inl (.primary (primary_of_derivation nested spelling))
  | comparison hasLeft _ _ hasRight leftComparable rightComparable =>
      exact .inl (.comparison (primary_of_derivation nested hasLeft)
        (primary_of_derivation nested hasRight) leftComparable rightComparable)

omit nested grows in
/-- Basic expressions are their own conjuncts. -/
theorem conjuncts_of_basic {e : Expression} (h : Basic Formed e) : e.conjuncts = [e] := by
  cases h with
  | primary formed => cases formed <;> rfl
  | comparison _ _ _ _ => rfl
  | negatedPrimary _ _ _ => rfl
  | negated _ _ _ => rfl

omit nested grows in
theorem disjuncts_of_alternative {e : Expression} (h : Alternative Formed e)
    : e.disjuncts = [e] := by
  cases h with
  | basic formed =>
      cases formed with
      | primary formed => cases formed <;> rfl
      | comparison _ _ _ _ => rfl
      | negatedPrimary _ _ _ => rfl
      | negated _ _ _ => rfl
  | conjunction _ => rfl

omit nested in
/-- What an operand contributes to a conjunction: operands of a conjunction between
parentheses are operands of the one around it.
-/
theorem operand_of_conjuncts {e : Expression} (h : Basic Formed e ∨ Formed e)
    (isTest : e.IsTest)
    : e.conjuncts ≠ [] ∧ ∀ a ∈ e.conjuncts, Operand Formed a ∧ a.IsTest := by
  have ofBasic (basic : Basic Formed e)
      : e.conjuncts ≠ [] ∧ ∀ a ∈ e.conjuncts, Operand Formed a ∧ a.IsTest := by
    rw [conjuncts_of_basic basic]
    exact ⟨by simp, by simpa using ⟨.basic basic, isTest⟩⟩
  rcases h with basic | formed
  · exact ofBasic basic
  · cases grows e formed with
    | alternative alternative =>
        cases alternative with
        | basic basic => exact ofBasic basic
        | conjunction inner => exact ⟨by simp [Expression.conjuncts], inner⟩
    | disjunction _ =>
        exact ⟨by simp [Expression.conjuncts],
          by simpa [Expression.conjuncts] using ⟨.disjunction formed, isTest⟩⟩

omit nested grows in
/-- The disjuncts of a test are operands of disjunctions, and there are some. -/
theorem alternative_of_disjuncts {e : Expression} (h : Disjunction Formed e)
    (isTest : e.IsTest)
    : e.disjuncts ≠ [] ∧ ∀ a ∈ e.disjuncts, Alternative Formed a ∧ a.IsTest := by
  cases h with
  | alternative alternative =>
      rw [disjuncts_of_alternative alternative]
      exact ⟨by simp, by simpa using ⟨alternative, isTest⟩⟩
  | disjunction formed => exact ⟨by simp [Expression.disjuncts], formed⟩

omit nested grows in
/-- Two or more items that each contribute something contribute two or more. -/
theorem two_of_flatMap {f : Expression → List Expression} {first second : Expression}
    {others : List Expression} (notEmpty : ∀ e ∈ first :: second :: others, f e ≠ [])
    : ∃ a b rest, (first :: second :: others).flatMap f = a :: b :: rest := by
  obtain ⟨a, as, eqFirst⟩ := List.exists_cons_of_ne_nil (notEmpty first (by simp))
  obtain ⟨b, bs, eqSecond⟩ := List.exists_cons_of_ne_nil (notEmpty second (by simp))
  cases as with
  | nil => exact ⟨a, b, bs ++ others.flatMap f, by simp [eqFirst, eqSecond]⟩
  | cons c as => exact ⟨a, c, as ++ f second ++ others.flatMap f, by simp [eqFirst]⟩

/-- A conjunction of the grammar is well-formed, with one operand or with several that are
spliced.
-/
theorem disjunction_of_conjunction {t rest : Text} {e : Expression}
    (h : Grammar.Conjunction Grammar.ShortLiteral Nested t e rest)
    : Disjunction Formed e := by
  cases h with
  | one spelling =>
      rcases basic_of_derivation nested grows spelling with basic | formed
      · exact .alternative (.basic basic)
      · exact grows _ formed
  | @several _ first second others _ _ spelling areTests spliced =>
      obtain ⟨_, formed⟩ :=
        forall_of_joined (fun _ _ _ h => basic_of_derivation nested grows h) spelling
      have contributed (e) (member : e ∈ first :: second :: others) :=
        operand_of_conjuncts grows (formed e member) (areTests e member)
      obtain ⟨a, b, rest, eq⟩ := two_of_flatMap fun e member => (contributed e member).1
      have all : ∀ e ∈ (first :: second :: others).flatMap Expression.conjuncts,
          Operand Formed e ∧ e.IsTest := by
        intro e member
        obtain ⟨operand, isOperand, contributes⟩ := List.mem_flatMap.mp member
        exact (contributed operand isOperand).2 e contributes
      rw [Grammar.spliced_conjunction_iff.mp spliced, eq]
      exact .alternative (.conjunction (eq ▸ all))

/-- A disjunction of the grammar is well-formed, with one operand or with several that are
spliced.
-/
theorem disjunction_of_derivation {t rest : Text} {e : Expression}
    (h : Grammar.Disjunction Grammar.ShortLiteral Nested t e rest)
    : Disjunction Formed e := by
  cases h with
  | one spelling => exact disjunction_of_conjunction nested grows spelling
  | @several _ first second others _ _ spelling areTests spliced =>
      obtain ⟨_, formed⟩ :=
        forall_of_joined (fun _ _ _ h => disjunction_of_conjunction nested grows h) spelling
      have contributed (e) (member : e ∈ first :: second :: others) :=
        alternative_of_disjuncts (formed e member) (areTests e member)
      obtain ⟨a, b, rest, eq⟩ := two_of_flatMap fun e member => (contributed e member).1
      have all : ∀ e ∈ (first :: second :: others).flatMap Expression.disjuncts,
          Alternative Formed e ∧ e.IsTest := by
        intro e member
        obtain ⟨operand, isOperand, contributes⟩ := List.mem_flatMap.mp member
        exact (contributed operand isOperand).2 e contributes
      rw [Grammar.spliced_disjunction_iff.mp spliced, eq]
      exact .disjunction (eq ▸ all)

end Nesting

/-- Logical expressions are formed at every level of nesting, by induction on it. -/
theorem formed_of_logical {depth : Nat} {t rest : Text} {e : Expression}
    (h : Grammar.Logical Grammar.ShortLiteral depth t e rest)
    : Formed depth e := by
  induction depth generalizing t e rest with
  | zero => cases h
  | succ depth ih =>
      exact disjunction_of_derivation (fun _ _ _ h => ih h) (fun _ h => h.succ) h

/-- What a text spells as a query has well-formed segments. -/
theorem segments_of_isQuery {depth : Nat} {t : Text} {query : Query}
    (h : Grammar.IsQuery Grammar.ShortLiteral depth t query)
    : Segments (Formed depth) query := by
  obtain ⟨spelling⟩ := h
  exact segments_of_derivation (fun _ _ _ h => formed_of_logical h) spelling

/-- What a text spells as a filter is a well-formed test. -/
theorem formed_of_isFilter {depth : Nat} {t : Text} {e : Expression}
    (h : Grammar.IsFilter Grammar.ShortLiteral depth t e)
    : Formed depth e ∧ e.IsTest := by
  cases h with
  | plain _ spelling isTest _ => exact ⟨formed_of_logical spelling, isTest⟩
  | marked _ _ spelling isTest _ => exact ⟨formed_of_logical spelling, isTest⟩

end JsonPath.Formation
