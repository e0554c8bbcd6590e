import JsonPath.Evaluation.Basic
import JsonPath.Proofs.Grammar.Regrouping
import JsonPath.Proofs.Parsing

/-! Conjunctions and disjunctions evaluate their operands from the left, up to the first that
decides the outcome or fails. Neither the merging of nested ones nor parentheses make a
difference to this.
-/

namespace JsonPath

-----------------------------------------------------------------------------------------
-- Outcomes of operands
-----------------------------------------------------------------------------------------

/-- The outcome of operands that are evaluated from the left, up to the first that fails or
is not neutral.
-/
def shortCircuit {ε : Type} (neutral : Bool) : List (Except ε Bool) → Except ε Bool
  | [] => .ok neutral
  | .error error :: _ => .error error
  | .ok truth :: others => if truth = neutral then shortCircuit neutral others else .ok truth

section Outcomes

variable {ε : Type} (neutral : Bool)

/-- A single outcome is the outcome of all. -/
theorem shortCircuit_singleton (outcome : Except ε Bool)
    : shortCircuit neutral [outcome] = outcome := by
  cases outcome with
  | error _ => rfl
  | ok truth =>
      simp only [shortCircuit]
      split
      next same => rw [same]
      next => rfl

/-- Operands in front of others can be evaluated first, by induction on them. -/
theorem shortCircuit_append (outcomes others : List (Except ε Bool))
    : shortCircuit neutral (outcomes ++ others)
      = shortCircuit neutral (shortCircuit neutral outcomes :: others) := by
  induction outcomes with
  | nil => simp [shortCircuit]
  | cons outcome outcomes ih =>
      cases outcome with
      | error _ => rfl
      | ok truth =>
          simp only [List.cons_append, shortCircuit]
          split
          next => exact ih
          next decides => simp only [shortCircuit, if_neg decides]

/-- Behind a first outcome, others with the same outcome can be exchanged. -/
theorem shortCircuit_cons_congr (outcome : Except ε Bool) {others others' : List (Except ε Bool)}
    (h : shortCircuit neutral others = shortCircuit neutral others')
    : shortCircuit neutral (outcome :: others) = shortCircuit neutral (outcome :: others') := by
  cases outcome with
  | error _ => rfl
  | ok _ => simp only [shortCircuit, h]

/-- Operands can be replaced by parts of the same outcome, by induction on the operands. -/
theorem shortCircuit_flatMap {α : Type} {outcome : α → Except ε Bool} {parts : α → List α}
    (same : ∀ a, shortCircuit neutral ((parts a).map outcome) = outcome a) (operands : List α)
    : shortCircuit neutral ((operands.flatMap parts).map outcome)
      = shortCircuit neutral (operands.map outcome) := by
  induction operands with
  | nil => rfl
  | cons operand operands ih =>
      rw [List.flatMap_cons, List.map_append, shortCircuit_append, same, List.map_cons]
      exact shortCircuit_cons_congr neutral _ ih

end Outcomes

-----------------------------------------------------------------------------------------
-- Conjunctions and disjunctions
-----------------------------------------------------------------------------------------

section Operands

variable (context : Context) (current : Value)

/-- Evaluating operands for a conjunction is short-circuit evaluation, by induction on the
operands.
-/
theorem allHold_eq (operands : List Expression)
    : allHold context operands current
      = shortCircuit true (operands.map (·.holds context current)) := by
  induction operands with
  | nil => simp only [allHold, List.map_nil, shortCircuit]
  | cons operand operands ih =>
      simp only [allHold, List.map_cons]
      cases operand.holds context current with
      | error _ => rfl
      | ok truth =>
          rw [Outcome.ok_bind, ih]
          cases truth <;> rfl

/-- Evaluating operands for a disjunction is short-circuit evaluation, by induction on the
operands.
-/
theorem anyHolds_eq (operands : List Expression)
    : anyHolds context operands current
      = shortCircuit false (operands.map (·.holds context current)) := by
  induction operands with
  | nil => simp only [anyHolds, List.map_nil, shortCircuit]
  | cons operand operands ih =>
      simp only [anyHolds, List.map_cons]
      cases operand.holds context current with
      | error _ => rfl
      | ok truth =>
          rw [Outcome.ok_bind, ih]
          cases truth <;> rfl

namespace Expression

/-- A conjunction holds by short-circuit evaluation up to the first operand that does not. -/
theorem holds_conjunction (operands : List Expression)
    : (conjunction operands).holds context current
      = shortCircuit true (operands.map (·.holds context current)) := by
  rw [holds, allHold_eq]

/-- A disjunction holds by short-circuit evaluation up to the first operand that does. -/
theorem holds_disjunction (operands : List Expression)
    : (disjunction operands).holds context current
      = shortCircuit false (operands.map (·.holds context current)) := by
  rw [holds, anyHolds_eq]

/-- Merging does not change the outcome if the whole and the parts of an operand have theirs.
-/
theorem holds_merge {neutral : Bool} {whole : List Expression → Expression}
    {parts : Expression → List Expression}
    (holds_whole
      : ∀ es, (whole es).holds context current
        = shortCircuit neutral (es.map (·.holds context current)))
    (holds_parts
      : ∀ e, shortCircuit neutral ((parts e).map (·.holds context current))
        = e.holds context current)
    (operands : List Expression)
    : (merge whole parts operands).holds context current
      = shortCircuit neutral (operands.map (·.holds context current)) := by
  unfold merge
  split
  next => exact (shortCircuit_singleton neutral _).symm
  next => rw [holds_whole, shortCircuit_flatMap neutral holds_parts]

/-- Conjoined operands are evaluated as they are, merged or not. -/
theorem holds_conjoin (operands : List Expression)
    : (conjoin operands).holds context current
      = shortCircuit true (operands.map (·.holds context current)) := by
  rw [conjoin_eq_merge]
  refine holds_merge context current (holds_conjunction context current) (fun e => ?_) operands
  unfold conjuncts
  split
  next inner => exact (holds_conjunction context current inner).symm
  next => exact shortCircuit_singleton true _

/-- Disjoined operands are evaluated as they are, merged or not. -/
theorem holds_disjoin (operands : List Expression)
    : (disjoin operands).holds context current
      = shortCircuit false (operands.map (·.holds context current)) := by
  rw [disjoin_eq_merge]
  refine holds_merge context current (holds_disjunction context current) (fun e => ?_) operands
  unfold disjuncts
  split
  next inner => exact (holds_disjunction context current inner).symm
  next => exact shortCircuit_singleton false _

end Expression

end Operands

-----------------------------------------------------------------------------------------
-- Grouping
-----------------------------------------------------------------------------------------

namespace Expression

/-- Parentheses around operands in a row keep what a text parses to, one level deeper. -/
theorem parseWithin_parenthesized {depth : Nat} {t t' : Text} {e : Expression}
    (parsed : parseWithin depth t = .ok e) (h : Grammar.Parenthesized depth t t')
    : parseWithin (depth + 1) t' = .ok e := by
  obtain ⟨focus⟩ := h
  obtain ⟨isFilter, before, text, changed⟩ := Grammar.filter_parenthesized focus
  obtain rfl := List.append_cancel_right text
  have yields := yields_of_isFilter isFilter
  have short := yields.good_of_ok parsed
  obtain rfl := Except.ok.inj (parsed.symm.trans (short ▸ yields).eq_ok)
  exact parseWithin_eq_ok_iff.mpr ⟨changed, short⟩

/-- Conjunctions and disjunctions have the outcome of their operands from the left, whatever
these are and whichever of them fail. Parentheses around adjacent operands of an operator, or
around a whole filter behind its question mark, leave the expression as it is, so that it has
the same outcome on every value.
-/
theorem outcome_of_grouping
    : (∀ context operands current,
        (conjoin operands).holds context current
          = shortCircuit true (operands.map (·.holds context current))
        ∧ (disjoin operands).holds context current
          = shortCircuit false (operands.map (·.holds context current)))
      ∧ ∀ depth t t' e,
        parseWithin depth t = .ok e
        → Grammar.Parenthesized depth t t'
        → parseWithin (depth + 1) t' = .ok e :=
  ⟨fun context operands current =>
      ⟨holds_conjoin context current operands, holds_disjoin context current operands⟩,
    fun _ _ _ _ parsed h => parseWithin_parenthesized parsed h⟩

open Grammar in
/-- In the filter `$ && @ && @` the last two operands can stand in parentheses. -/
theorem outcome_of_grouping_lastTwo
    : parseWithin 1 "$ && @ && @" = .ok (.conjunction [.root [], .current [], .current []])
      ∧ Parenthesized 1 "$ && @ && @" "$ && (@ && @)"
      ∧ parseWithin 2 "$ && (@ && @)"
        = .ok (.conjunction [.root [], .current [], .current []]) := by
  have hasRoot (t : Text) : Basic Literal (Logical Literal 0) (.char '$' :: t) (.root []) t :=
    .primary (.root (.mk .none))
  have hasCurrent (t : Text)
      : Basic Literal (Logical Literal 0) (.char '@' :: t) (.current []) t :=
    .primary (.current (.mk .none))
  have lastTwo : Joined "&&" (Basic Literal (Logical Literal 0)) "@ && @"
      [.current [], .current []] [] :=
    .more (hasCurrent _) (.more rfl .none) (.more rfl .none) (.one (hasCurrent _))
  have run : Run (Basic Literal (Logical Literal 0)) "&&" "@ && @" [] "$ && @ && @"
      [.root []] [.current [], .current []] [] [] :=
    .later (hasRoot _) (.more rfl .none) (.more rfl .none) (.last lastTwo)
  have areTests : ∀ e ∈ [.root [], .current [], .current []], IsTest e := by
    simp [IsTest, Syntax.isLiteral, Syntax.resultKind?]
  have focus : InFilter Literal "@ && @" [] 1 "$ && @ && @"
      (.conjunction [.root [], .current [], .current []]) :=
    .plain (.operands .none (.inside (.one (.run run (by decide) areTests)) (by simp))
      (isTest_conjunction _) .none)
  have parenthesized : Parenthesized 1 "$ && @ && @" "$ && (@ && @)" :=
    @Parenthesized.mk 1 "$ && " "@ && @" [] _ focus
  have isFilter := (@filter_parenthesized "@ && @" [] _ _ 1 focus).1
  have parsed := parseWithin_eq_ok_iff.mpr ⟨isFilter, rfl⟩
  exact ⟨parsed, parenthesized, outcome_of_grouping.2 _ _ _ _ parsed parenthesized⟩

end Expression

end JsonPath
