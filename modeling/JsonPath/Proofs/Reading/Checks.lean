import JsonPath.Proofs.Reading.Basic

/-! The checks of the readers decide the conditions that the grammar puts on expressions. -/

namespace JsonPath.Syntax

open Grammar Outcome

/-- The check of a test accepts exactly the tests. -/
theorem checkTest_eq_ok {e : Expression} {rest : Text}
    : checkTest e rest = .ok () ↔ e.IsTest := by
  unfold checkTest Expression.IsTest
  split
  next isLiteral => simp [isLiteral]
  next notLiteral =>
    split
    next isValue => simp [isValue]
    next notValue => simp [notLiteral, notValue]

/-- Operands are all accepted exactly when each of them is a test. -/
theorem forM_checkTest_eq_ok {es : List Expression} {t : Text}
    : (es.forM fun e => checkTest e t) = .ok () ↔ ∀ e ∈ es, e.IsTest := by
  induction es with
  | nil => simp [pure, Except.pure]
  | cons e es ih =>
      have unfolded : ((e :: es).forM fun e => checkTest e t)
          = (checkTest e t >>= fun _ => es.forM fun e => checkTest e t) := rfl
      simp only [unfolded, bind_eq_ok, List.mem_cons, forall_eq_or_imp]
      constructor
      · rintro ⟨_, check, others⟩
        exact ⟨checkTest_eq_ok.mp check, ih.mp others⟩
      · rintro ⟨isTest, areTests⟩
        exact ⟨(), checkTest_eq_ok.mpr isTest, ih.mpr areTests⟩

/-- The check of a side of a comparison accepts exactly what can be compared. -/
theorem checkComparable_eq_ok {e : Expression} {rest : Text}
    : checkComparable e rest = .ok () ↔ e.IsComparable := by
  unfold checkComparable Expression.IsComparable
  cases segments? e with
  | none => cases resultKind? e <;> simp
  | some query =>
      cases resultKind? e <;> cases singular : query.isSingular <;> simp [singular]

/-- Arguments pass the check when there are as many as parameters and each is of the kind of
its parameter.
-/
theorem checkArguments_eq_ok {name : Text} {arguments : List (Expression × Text)}
    {kinds : List Kind} (sameLength : arguments.length = kinds.length)
    : checkArguments name arguments kinds = .ok ()
      ↔ List.Forall₂ (fun e kind => isArgument e kind) (arguments.map (·.1)) kinds := by
  induction arguments generalizing kinds with
  | nil =>
      cases kinds with
      | nil => simp [checkArguments]
      | cons kind kinds => simp at sameLength
  | cons argument arguments ih =>
      cases kinds with
      | nil => simp at sameLength
      | cons kind kinds =>
          have tail := @ih kinds (by simpa using sameLength)
          obtain ⟨e, rest⟩ := argument
          simp only [checkArguments, List.map_cons, List.forall₂_cons]
          split
          next isArgument => simp [isArgument, tail]
          next notArgument => simp [notArgument]

/-- The check of a call accepts exactly the functions with arguments that fit their kinds. -/
theorem checkCall_eq_ok {name start : Text} {arguments : List (Expression × Text)}
    : checkCall name start arguments = .ok ()
      ↔ Expression.FitCall name (arguments.map (·.1)) := by
  unfold checkCall Expression.FitCall
  cases found : Builtin.ofName? name with
  | none => simp
  | some builtin =>
      simp only [Option.some.injEq, forall_eq']
      split
      next different =>
        constructor
        · intro h
          cases h
        · intro fit
          exact absurd (by simpa using fit.length_eq) different
      next same => exact checkArguments_eq_ok (by simpa using same)

end JsonPath.Syntax
